import ScriptBridge.Proofs.Dictionary.Founded
/-!
What a registry holds after any calls.

A call that registers an application adds its model at most (`Registry.get?_accept`), and only if
the application has none and the dictionary is founded. So an application has the model of the first
founded dictionary that it was registered with, whatever calls there were before, between and after
(`Registry.get?_ofCalls`). Lookups for an application ask its own model first, and find the first
class of an interface and the first enumeration of a name that it declares; the models of other
applications are asked only for what it does not declare (`Registry.AnswersFrom.of_get?`). Together
these say that registrations are written once and do not disturb each other
(`Registry.first_model_stays`).
-/
namespace ScriptBridge

/-- A call that registers a dictionary for an application. -/
structure Registration where
  application : String
  dictionary : Dictionary

/-- The model that a call builds for an application, if it is for that one and does not fail. -/
def Registration.model? (call : Registration) (application : String) : Option Model :=
  if call.application = application then (Model.build call.dictionary application).toOption else none

namespace Registry

/-- The registry after a call. A call that fails registers nothing. -/
def accept (r : Registry) (call : Registration) : Registry :=
  match r.register call.dictionary call.application with
  | .ok (_, after) => after
  | .error _ => r

/-- The registry after a run of calls. -/
def ofCalls (calls : List Registration) : Registry := calls.foldl accept {}

/-- In a run of calls, the first for an application with a dictionary that is founded built this
model. -/
def FirstFounded (calls : List Registration) (application : String) (m : Model) : Prop :=
  ∃ before d after, calls = before ++ ⟨application, d⟩ :: after ∧
    Model.build d application = .ok m ∧
    ∀ call ∈ before, call.application = application → ¬ call.dictionary.Founded

/-- The first item of a list that satisfies a condition. -/
def IsFirst {α : Type} (p : α → Prop) (items : List α) (item : α) : Prop :=
  p item ∧ ∃ before after, items = before ++ item :: after ∧ ∀ other ∈ before, ¬ p other

/-- What is asked of a registry for an application is answered from one model, as far as the model
declares it: an interface is found in that model and as the first class of that interface which the
model declares, and an enumeration as the first one of that name. -/
structure AnswersFrom (r : Registry) (application : String) (m : Model) : Prop where
  get? : r.get? application = some m
  interfaces : ∀ c ∈ m.dictionary.classes,
    r.resolve? (some application) c.interface = some m ∧
      r.hasInterface (some application) c.interface = true ∧
      ∃ declared, IsFirst (·.interface = c.interface) m.dictionary.classes declared ∧
        m.dictionary.class? c.interface = some declared ∧
        r.class? (some application) c.interface = some declared
  enumerations : ∀ e ∈ m.dictionary.enumerations,
    ∃ declared, IsFirst (·.name = e.name) m.dictionary.enumerations declared ∧
      m.dictionary.enumeration? e.name = some declared ∧
      r.enumeration? (some application) e.name = some declared

/-! ## One call -/

section
variable {r : Registry} {application : String} {m : Model}

theorem register_known (got : r.get? application = some m) (d : Dictionary) :
    r.register d application = .ok (m, r) := by
  rw [register, got]

/-- A call for an application without a model adds the one it builds, unless it fails. -/
theorem get?_accept_new {d : Dictionary} (new : r.get? application = none) :
    (r.accept ⟨application, d⟩).get? application = (Model.build d application).toOption := by
  rw [accept, register_new d new]
  cases Model.build d application with
  | error fault => exact new
  | ok m =>
    rw [get?] at new
    show (r.models ++ [(application, m)]).lookup application = some m
    rw [List.lookup_append, new, Option.none_or, List.lookup_cons_self]

theorem get?_accept_other {call : Registration} (other : call.application ≠ application) :
    (r.accept call).get? application = r.get? application := by
  cases known : r.get? call.application with
  | some m => rw [accept, register_known known]
  | none =>
    rw [accept, register_new _ known]
    cases Model.build call.dictionary call.application with
    | error fault => rfl
    | ok m =>
      show (r.models ++ [(call.application, m)]).lookup application = r.models.lookup application
      rw [List.lookup_append, List.lookup_cons, beq_false_of_ne other.symm, List.lookup_nil,
        Option.or_none]

/-- An application has the model that it had before a call, or else the one that the call builds for
it, if the call does not fail. -/
theorem get?_accept (r : Registry) (call : Registration) (application : String) :
    (r.accept call).get? application = (r.get? application).or (call.model? application) := by
  rw [Registration.model?]
  split
  · next same =>
    subst same
    cases known : r.get? call.application with
    | some m => rw [accept, register_known known, known, Option.some_or]
    | none => exact get?_accept_new known
  · next other => rw [get?_accept_other other, Option.or_none]

theorem accept_failed {d : Dictionary} {fault : ConfigFault}
    (failed : r.register d application = .error fault) : r.accept ⟨application, d⟩ = r := by
  rw [accept, failed]

theorem accept_registered {d : Dictionary} {after : Registry}
    (registered : r.register d application = .ok (m, after)) :
    r.accept ⟨application, d⟩ = after := by
  rw [accept, registered]

theorem get?_register {d : Dictionary} {after : Registry}
    (registered : r.register d application = .ok (m, after)) : after.get? application = some m := by
  cases known : r.get? application with
  | some existing =>
    cases (register_known known d).symm.trans registered
    exact known
  | none =>
    rw [← accept_registered registered, get?_accept_new known,
      (build_of_register known registered).1]
    rfl

/-! ## Runs of calls -/

theorem ofCalls_concat (calls : List Registration) (call : Registration) :
    ofCalls (calls ++ [call]) = (ofCalls calls).accept call := by
  rw [ofCalls, List.foldl_append]
  rfl

theorem get?_foldl (calls : List Registration) (r : Registry) (application : String) :
    (calls.foldl accept r).get? application =
      (r.get? application).or (calls.findSome? (·.model? application)) := by
  induction calls generalizing r with
  | nil => exact (Option.or_none).symm
  | cons call calls ih =>
    rw [List.foldl_cons, ih, get?_accept, Option.or_assoc, List.findSome?_cons]
    cases call.model? application <;> rfl

/-- An application has the model of the first call for it that does not fail. -/
theorem get?_ofCalls (calls : List Registration) (application : String) :
    (ofCalls calls).get? application = calls.findSome? (·.model? application) :=
  (get?_foldl calls {} application).trans Option.none_or

theorem get?_ofCalls_append {calls : List Registration}
    (got : (ofCalls calls).get? application = some m) (more : List Registration) :
    (ofCalls (calls ++ more)).get? application = some m := by
  rw [ofCalls, List.foldl_append, get?_foldl, ← ofCalls, got, Option.some_or]

theorem model?_eq_some_iff {call : Registration} :
    call.model? application = some m ↔
      call.application = application ∧ Model.build call.dictionary application = .ok m := by
  rw [Registration.model?]
  split
  · next same =>
    cases Model.build call.dictionary application <;> simp [Except.toOption, same]
  · next other => simp [other]

theorem model?_eq_none_iff {call : Registration} :
    call.model? application = none ↔
      (call.application = application → ¬ call.dictionary.Founded) := by
  rw [Option.eq_none_iff_forall_ne_some]
  constructor
  · intro none same founded
    obtain ⟨m, built⟩ := (Model.build_iff_founded call.dictionary application).mpr founded
    exact none m (model?_eq_some_iff.mpr ⟨same, built⟩)
  · intro refused m some
    obtain ⟨same, built⟩ := model?_eq_some_iff.mp some
    exact refused same (Model.founded_of_build built)

theorem get?_ofCalls_iff (calls : List Registration) :
    (ofCalls calls).get? application = some m ↔ FirstFounded calls application m := by
  rw [get?_ofCalls, List.findSome?_eq_some_iff]
  constructor
  · rintro ⟨before, ⟨name, d⟩, after, split, built, none⟩
    obtain ⟨rfl, built⟩ := model?_eq_some_iff.mp built
    exact ⟨before, d, after, split, built,
      fun call inside => model?_eq_none_iff.mp (none call inside)⟩
  · rintro ⟨before, d, after, split, built, refused⟩
    exact ⟨before, ⟨application, d⟩, after, split, model?_eq_some_iff.mpr ⟨rfl, built⟩,
      fun call inside => model?_eq_none_iff.mpr (refused call inside)⟩

/-! ## Lookups -/

theorem exists_isFirst {α : Type} {p : α → Prop} [DecidablePred p] {items : List α} {item : α}
    (inside : item ∈ items) (here : p item) :
    ∃ first, IsFirst p items first ∧ items.find? (fun other => p other) = some first := by
  have any : (items.find? fun other => p other).isSome = true :=
    List.find?_isSome.mpr ⟨item, inside, decide_eq_true here⟩
  obtain ⟨first, found⟩ := Option.isSome_iff_exists.mp any
  obtain ⟨holds, before, after, split, earlier⟩ := List.find?_eq_some_iff_append.mp found
  refine ⟨first, ⟨of_decide_eq_true holds, before, after, split, fun other known => ?_⟩, found⟩
  have refused := earlier other known
  simpa using refused

theorem AnswersFrom.of_get? (got : r.get? application = some m) : r.AnswersFrom application m where
  get? := got
  interfaces := by
    intro c inside
    obtain ⟨declared, first, found⟩ := exists_isFirst (p := (·.interface = c.interface)) inside rfl
    have known : m.dictionary.class? c.interface = some declared := found
    have own : r.resolve? (some application) c.interface = some m :=
      resolve?_own got (by rw [known, Option.isSome_some])
    refine ⟨own, ?_, declared, first, known, ?_⟩
    · rw [hasInterface, own, Option.isSome_some]
    · rw [Registry.class?, own, Option.bind_some, known]
  enumerations := by
    intro e inside
    obtain ⟨declared, first, found⟩ := exists_isFirst (p := (·.name = e.name)) inside rfl
    have known : m.dictionary.enumeration? e.name = some declared := found
    refine ⟨declared, first, known, ?_⟩
    rw [enumeration?, Option.bind_some, got, Option.bind_some, known]

end

end Registry

theorem Bridge.applications_register (b : Bridge) (d : Dictionary) (name : String) :
    (b.register d name).2.applications = b.applications.accept ⟨applicationReference name, d⟩ := by
  rw [register, Registry.accept]
  dsimp only
  cases b.applications.register d (applicationReference name) with
  | error fault => rfl
  | ok registered =>
    dsimp only
    split <;> rfl

/-- **Registrations are written once and do not disturb each other.** After any run of calls an
application has the model of the first call for it whose dictionary is founded, and none if there
was no such call. A further call that fails leaves the registry as it is; one that succeeds gives
the model that the application has then; and one for an application that has a model gives that
model and leaves the registry as it is, whatever the dictionary. Whatever is called afterwards, the
interfaces and the enumerations that the model declares are found, and found in it. All of this
holds of the registry of a bridge, on which an application is registered by its name. -/
theorem Registry.first_model_stays (calls : List Registration) (application : String) :
    let r := ofCalls calls
    (∀ m, r.get? application = some m ↔ FirstFounded calls application m) ∧
      (∀ d fault, r.register d application = .error fault →
        ofCalls (calls ++ [⟨application, d⟩]) = r) ∧
      (∀ d m after, r.register d application = .ok (m, after) →
        ofCalls (calls ++ [⟨application, d⟩]) = after ∧ after.get? application = some m) ∧
      (∀ m, r.get? application = some m →
        (∀ d, r.register d application = .ok (m, r)) ∧
          ∀ more, (ofCalls (calls ++ more)).AnswersFrom application m) ∧
      ∀ b : Bridge, b.applications = r → ∀ d name, (b.register d name).2.applications =
        ofCalls (calls ++ [⟨Bridge.applicationReference name, d⟩]) := by
  intro r
  refine ⟨fun m => get?_ofCalls_iff calls, ?_, ?_, ?_, ?_⟩
  · intro d fault failed
    rw [ofCalls_concat, accept_failed failed]
  · intro d m after registered
    rw [ofCalls_concat]
    exact ⟨accept_registered registered, get?_register registered⟩
  · intro m got
    exact ⟨register_known got, fun more => .of_get? (get?_ofCalls_append got more)⟩
  · intro b same d name
    rw [ofCalls_concat, Bridge.applications_register, same]

namespace Shops

def finder : String := "application \"Finder\""

def music : String := "application \"Music\""

/-- The enumeration that an application declares by the name `Order`. -/
def order (scriptName : String) : Enumeration where
  name := "Order"
  constants := [{ name := "By", scriptName }]

/-- An application with one more interface, whose class has a name, and with an enumeration. -/
def dictionary (interface name : String) : Dictionary where
  interface := interface
  classes := [{ interface }, { interface := "Item", name := some name }]
  enumerations := [order name]

/-- The first call for the second application fails, since its dictionary does not declare the
application; and in the end that application is registered once more. -/
def calls : List Registration := [
  ⟨music, dictionary "Music" "track"⟩,
  ⟨finder, { interface := "Finder", classes := [{ interface := "Item" }] }⟩,
  ⟨finder, dictionary "Finder" "item"⟩,
  ⟨finder, dictionary "Finder" "shelf"⟩]

/-- The model of the first call for the second application that does not fail. -/
def model : Model := (Model.build (dictionary "Finder" "item") finder).toOption.getD default

/-- The call that fails changes nothing; and of the interfaces and the enumerations of one name the
application's own are found, as they were registered first. -/
theorem item_of_finder :
    Registry.ofCalls (calls.take 2) = Registry.ofCalls (calls.take 1) ∧
      (Registry.ofCalls calls).className? (some finder) "Item" = some "item" ∧
      (Registry.ofCalls calls).enumeration? (some finder) "Order" = some (order "item") ∧
      (Registry.ofCalls calls).enumeration? none "Order" = some (order "track") := by
  obtain ⟨-, unchanged, -⟩ := Registry.first_model_stays (calls.take 1) finder
  obtain ⟨-, -, -, stays, -⟩ := Registry.first_model_stays (calls.take 3) finder
  have answers : (Registry.ofCalls calls).AnswersFrom finder model :=
    (stays model rfl).2 (calls.drop 3)
  obtain ⟨-, -, item, -, known, own⟩ := answers.interfaces model.dictionary.classes[1] (by decide)
  obtain ⟨first, ⟨-, before, after, split, -⟩, -, found⟩ :=
    answers.enumerations (order "item") List.mem_cons_self
  refine ⟨unchanged _ (.applicationNotDeclared "Finder") rfl, ?_, ?_, rfl⟩
  · rw [Registry.className?]
    exact congrArg (·.bind ClassEntry.name) (own.trans known.symm)
  · have inside : first ∈ [order "item"] := by
      rw [show [order "item"] = before ++ first :: after from split]
      simp
    rw [← List.mem_singleton.mp inside]
    exact found

end Shops

end ScriptBridge
