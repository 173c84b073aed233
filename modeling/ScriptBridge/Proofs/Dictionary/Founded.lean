import ScriptBridge.Proofs.Dictionary.Classes
/-!
Which dictionaries can be registered, and why the loops that run along superclasses end.

A dictionary is founded if it declares its application and the links to superclasses lead from the
first class of every interface, over declared interfaces only, to a class without one. Building the
classes follows the links no further than there are classes. That bound turns away every circle and
no chain, however long (`Model.build_iff_founded`).

Two loops run along the same links and have no bound: one collects the methods that a class
inherits, one searches a property. Each of them is stated as it goes round (`Model.inherit`,
`Model.search`), and `Ends` says that such a loop comes to an end with a result. In a founded
dictionary both do, and what they end with is what `Model.methodEntries` and `Model.property?`
compute with fuel: the fuel never runs out.
-/
namespace ScriptBridge

/-- The links to superclasses lead to an end from every interface. -/
structure Dictionary.Founded (d : Dictionary) : Prop where
  application : (d.class? d.interface).isSome
  lineages : ∀ interface c, d.class? interface = some c → ∃ above, d.Lineage c above

/-- A loop comes to an end: going round from a state leads to another state, and at last to a
result. -/
inductive Ends {σ ρ : Type} (round : σ → σ ⊕ ρ) : σ → ρ → Prop
  | done {state : σ} {result : ρ} (h : round state = .inr result) : Ends round state result
  | again {state next : σ} {result : ρ} (h : round state = .inl next)
      (rest : Ends round next result) : Ends round state result

namespace Model

open Dictionary

variable {d : Dictionary} {application : String} {c : ClassEntry} {above : List ClassEntry}

/-! ## Building -/

/-- The classes of a lineage are built, if there is more fuel than superclasses. -/
theorem typeClassFor_ok (lineage : d.Lineage c above) {fuel : Nat} (enough : above.length < fuel)
    (built : List (String × TypeClass)) :
    ∃ result, typeClassFor d application fuel c built = .ok result := by
  induction lineage generalizing fuel with
  | @top c root =>
    obtain ⟨fuel, rfl⟩ := Nat.exists_eq_succ_of_ne_zero (Nat.ne_zero_of_lt enough)
    unfold typeClassFor
    split
    · exact ⟨_, rfl⟩
    · simp only [root]
      exact ⟨_, rfl⟩
  | @step c p above hext _ ih =>
    obtain ⟨fuel, rfl⟩ := Nat.exists_eq_succ_of_ne_zero (Nat.ne_zero_of_lt enough)
    obtain ⟨name, named, found⟩ := hext
    obtain ⟨result, ran⟩ := ih (Nat.lt_of_succ_lt_succ enough)
    unfold typeClassFor
    split
    · exact ⟨_, rfl⟩
    · simp only [named, found, ran]
      exact ⟨_, rfl⟩

theorem foldlM_ok (application : String) (founded : d.Founded) {before classes : List ClassEntry}
    (split : d.classes = before ++ classes) {built : List (String × TypeClass)}
    (covered : ∀ e ∈ before, e.interface ∈ keys built)
    (hb : ∀ item ∈ built, d.Heads application item) :
    ∃ after, classes.foldlM (fun built entry =>
      (typeClassFor d application (d.classes.length + 1) entry built).map (·.2)) built =
        .ok after := by
  induction classes generalizing before built with
  | nil => exact ⟨built, rfl⟩
  | cons c classes ih =>
    have turn := first_or_built split covered
    obtain ⟨⟨tc, after⟩, ran⟩ :
        ∃ result, typeClassFor d application (d.classes.length + 1) c built = .ok result := by
      rcases turn with first | known
      · obtain ⟨above, lineage⟩ := founded.lineages c.interface c first
        have bound := lineage.length_lt (mem_of_class? first)
        exact typeClassFor_ok lineage (Nat.lt_succ_of_lt bound) built
      · obtain ⟨existing, found⟩ := exists_lookup known
        exact ⟨_, typeClassFor_known _ found⟩
    obtain ⟨heads, here, larger⟩ := typeClassFor_heads turn hb ran
    rw [List.foldlM_cons, ran]
    have moved : d.classes = (before ++ [c]) ++ classes := by
      rw [split, List.append_assoc]
      rfl
    refine ih moved ?_ heads
    intro e he
    rcases List.mem_append.mp he with he | he
    · exact List.map_subset _ larger (covered e he)
    · rw [List.mem_singleton.mp he]
      exact List.mem_map_of_mem here

theorem founded_of_build {m : Model} (h : build d application = .ok m) : d.Founded where
  application := by
    unfold build at h
    split at h
    · cases h
    · next declared => exact Option.isSome_iff_ne_none.mpr (by simpa using declared)
  lineages := by
    intro interface c hc
    obtain ⟨heads, complete⟩ := build_heads h
    obtain ⟨tc, found⟩ := exists_lookup (complete c (mem_of_class? hc))
    have first : d.class? c.interface = some c := by rwa [interface_of_class? hc]
    obtain ⟨above, lineage, -⟩ := (heads _ (mem_of_lookup found)).eq_typeClass first
    exact ⟨above, lineage⟩

/-- A model is built from the founded dictionaries and from no others. -/
theorem build_iff_founded (d : Dictionary) (application : String) :
    (∃ m, build d application = .ok m) ↔ d.Founded := by
  constructor
  · rintro ⟨m, h⟩
    exact founded_of_build h
  · intro founded
    obtain ⟨typeClasses, table⟩ := foldlM_ok application founded (List.nil_append _).symm
      (fun _ he => absurd he List.not_mem_nil)
      (fun item (hi : item ∈ []) => absurd hi List.not_mem_nil)
    obtain ⟨root, declared⟩ := Option.isSome_iff_exists.mp founded.application
    rw [build, declared, Option.isNone_some, if_neg Bool.false_ne_true, buildTypeClasses, table]
    exact ⟨_, rfl⟩

/-! ## Inheriting methods -/

/-- Collecting the methods of an interface goes round once for each class of the chain. -/
def inherit (d : Dictionary) (entry : ClassEntry) :
    Option ClassEntry × List ((String × String) × Method) →
      (Option ClassEntry × List ((String × String) × Method)) ⊕ List ((String × String) × Method)
  | (none, collected) => .inr collected
  | (some declaring, collected) =>
    .inl (declaring.superclass.bind d.class?,
      collected ++ declaring.methods.map fun m => ((entry.interface, m.name), m))

/-- With enough fuel a lineage is found whole. -/
theorem lineage_eq (lineage : d.Lineage c above) {fuel : Nat} (enough : above.length < fuel) :
    Model.lineage d fuel c = c :: above := by
  induction lineage generalizing fuel with
  | @top c root =>
    obtain ⟨fuel, rfl⟩ := Nat.exists_eq_succ_of_ne_zero (Nat.ne_zero_of_lt enough)
    rw [Model.lineage, root, Option.bind_none]
  | @step c p above hext _ ih =>
    obtain ⟨fuel, rfl⟩ := Nat.exists_eq_succ_of_ne_zero (Nat.ne_zero_of_lt enough)
    obtain ⟨name, named, found⟩ := hext
    rw [Model.lineage, named, Option.bind_some, found, ← ih (Nat.lt_of_succ_lt_succ enough)]

theorem ends_inherit (entry : ClassEntry) (lineage : d.Lineage c above)
    (collected : List ((String × String) × Method)) :
    Ends (inherit d entry) (some c, collected)
      (collected ++ (c :: above).flatMap fun declaring =>
        declaring.methods.map fun m => ((entry.interface, m.name), m)) := by
  induction lineage generalizing collected with
  | @top c root =>
    refine .again rfl (.done ?_)
    rw [root, List.flatMap_singleton]
    rfl
  | @step c p above hext _ ih =>
    obtain ⟨name, named, found⟩ := hext
    refine .again rfl ?_
    rw [named, Option.bind_some, found, List.flatMap_cons, ← List.append_assoc]
    exact ih _

/-- Collecting the methods of a class ends, also for a later class of an interface, whose own
superclass need not be declared. -/
theorem ends_methodEntries (founded : d.Founded) (entry : ClassEntry) :
    Ends (inherit d entry) (some entry, []) (methodEntries d entry) := by
  refine .again rfl ?_
  rw [methodEntries, Model.lineage, List.flatMap_cons, List.nil_append]
  cases next : entry.superclass.bind d.class? with
  | none =>
    refine .done ?_
    rw [List.flatMap_nil, List.append_nil]
    rfl
  | some parent =>
    obtain ⟨name, -, found⟩ := Option.bind_eq_some_iff.mp next
    obtain ⟨above, lineage⟩ := founded.lineages name parent found
    dsimp only
    rw [lineage_eq lineage (lineage.length_lt (mem_of_class? found))]
    exact ends_inherit entry lineage _

/-! ## Searching properties -/

/-- Searching a property goes round once for each interface of the chain. -/
def search (m : Model) (key interface : String) : String ⊕ Option Property :=
  match (m.properties.lookup interface).bind fun entries => entries.lookup key with
  | some property => .inr (some property)
  | none =>
    match (m.dictionary.class? interface).bind ClassEntry.superclass with
    | none => .inr none
    | some superclass => .inl superclass

theorem ends_propertyFrom? {m : Model} (lineage : m.dictionary.Lineage c above) (key : String)
    {interface : String} (hc : m.dictionary.class? interface = some c) {fuel : Nat}
    (enough : above.length < fuel) :
    Ends (m.search key) interface (m.propertyFrom? key fuel interface) := by
  induction lineage generalizing interface fuel with
  | @top c root =>
    obtain ⟨fuel, rfl⟩ := Nat.exists_eq_succ_of_ne_zero (Nat.ne_zero_of_lt enough)
    refine .done ?_
    cases own : (m.properties.lookup interface).bind fun entries => entries.lookup key with
    | some property => simp only [search, propertyFrom?, own]
    | none => simp only [search, propertyFrom?, own, hc, Option.bind_some, root, Option.bind_none]
  | @step c p above hext _ ih =>
    obtain ⟨fuel, rfl⟩ := Nat.exists_eq_succ_of_ne_zero (Nat.ne_zero_of_lt enough)
    obtain ⟨name, named, found⟩ := hext
    cases own : (m.properties.lookup interface).bind fun entries => entries.lookup key with
    | some property =>
      refine .done ?_
      simp only [search, propertyFrom?, own]
    | none =>
      have moved : m.search key interface = .inl name := by
        simp only [search, own, hc, Option.bind_some, named]
      refine .again moved ?_
      simp only [propertyFrom?, own, hc, Option.bind_some, named]
      exact ih found (Nat.lt_of_succ_lt_succ enough)

/-- The search for a property begins if the class is known, and ends then. -/
theorem ends_property? {m : Model} (h : build d application = .ok m) (tc : TypeClass)
    (key : String) :
    match m.interfaceFor? tc with
    | none => m.property? tc key = none
    | some interface => Ends (m.search key) interface (m.property? tc key) := by
  cases known : m.interfaceFor? tc with
  | none => simp only [property?, known, Option.bind_none]
  | some interface =>
    obtain ⟨item, chosen, rfl⟩ := Option.map_eq_some_iff.mp known
    obtain ⟨c, above, first, lineage, rfl⟩ := (build_heads h).1 item (of_declared? chosen).1
    have bound := lineage.length_lt (mem_of_class? first)
    simp only [property?, known, Option.bind_some]
    rw [← build_dictionary h] at lineage first bound
    exact ends_propertyFrom? lineage key first (Nat.lt_succ_of_lt bound)

end Model

/-- **A new application is registered exactly if its dictionary is founded**, and refused with a
fault of the dictionary otherwise. Once it is registered, collecting the methods of every class
ends, and so does every search for a property. -/
theorem Registry.register_iff_founded {r : Registry} {application : String}
    (new : r.get? application = none) (d : Dictionary) :
    ((∃ m after, r.register d application = .ok (m, after)) ↔ d.Founded) ∧
      (¬d.Founded → ∃ fault : ConfigFault, r.register d application = .error fault) ∧
      ∀ m after, r.register d application = .ok (m, after) →
        (∀ c ∈ d.classes, Ends (Model.inherit d c) (some c, []) (Model.methodEntries d c)) ∧
          ∀ tc key, match m.interfaceFor? tc with
            | none => m.property? tc key = none
            | some interface => Ends (m.search key) interface (m.property? tc key) := by
  have accepts := Model.build_iff_founded d application
  rw [register_new d new]
  cases built : Model.build d application with
  | error fault =>
    have refused : ¬d.Founded := fun founded => by
      obtain ⟨m, ok⟩ := accepts.mpr founded
      cases built.symm.trans ok
    refine ⟨⟨?_, fun founded => absurd founded refused⟩, fun _ => ⟨fault, rfl⟩, ?_⟩
    · rintro ⟨m, after, h⟩
      cases h
    · intro m after h
      cases h
  | ok m =>
    have founded : d.Founded := accepts.mp ⟨m, built⟩
    refine ⟨⟨fun _ => founded, fun _ => ⟨m, _, rfl⟩⟩, fun refused => absurd founded refused, ?_⟩
    intro m' after h
    cases h
    exact ⟨fun c _ => Model.ends_methodEntries founded c, Model.ends_property? built⟩

theorem Bridge.register_refused {b : Bridge} {d : Dictionary} {name : String}
    (new : b.applications.get? (applicationReference name) = none) (refused : ¬d.Founded) :
    ∃ fault, b.register d name = (.error (.config fault), b) := by
  cases built : Model.build d (applicationReference name) with
  | ok m => exact absurd (Model.founded_of_build built) refused
  | error fault =>
    refine ⟨fault, ?_⟩
    rw [register, Registry.register_new d new, built]
    rfl

namespace Shelves

open Dictionary

def finder : String := "application \"Finder\""

/-- A dictionary in which a class comes before those it extends, and the second class of an
interface extends one that is not declared. -/
def dictionary : Dictionary where
  interface := "Finder"
  classes := [
    { interface := "Folder", superclass := some "Container" },
    { interface := "Finder" },
    { interface := "Folder", superclass := some "Shelf" },
    { interface := "Item" },
    { interface := "Container", superclass := some "Item" }]

/-- A dictionary in which two classes extend each other. -/
def circle : Dictionary where
  interface := "Finder"
  classes := [
    { interface := "Finder" },
    { interface := "Item", superclass := some "Container" },
    { interface := "Container", superclass := some "Item" }]

/-- Of these two dictionaries the first can be registered, and the second cannot. -/
theorem registered_or_refused :
    (∃ m after, Registry.register {} dictionary finder = .ok (m, after)) ∧
      ∃ fault, Registry.register {} circle finder = .error fault := by
  have new : Registry.get? {} finder = none := rfl
  constructor
  · refine (Registry.register_iff_founded new dictionary).1.mpr ⟨rfl, fun interface c hc => ?_⟩
    have item : dictionary.Lineage dictionary.classes[3] [] := .top rfl
    have container := Lineage.step (c := dictionary.classes[4]) ⟨"Item", rfl, rfl⟩ item
    have folder := Lineage.step (c := dictionary.classes[0]) ⟨"Container", rfl, rfl⟩ container
    have first : dictionary.class? c.interface = some c := by rwa [interface_of_class? hc]
    have inside := mem_of_class? hc
    simp only [dictionary, List.mem_cons, List.not_mem_nil, or_false] at inside
    rcases inside with rfl | rfl | rfl | rfl | rfl
    · exact ⟨_, folder⟩
    · exact ⟨[], .top rfl⟩
    · exact absurd first (by decide)
    · exact ⟨_, item⟩
    · exact ⟨_, container⟩
  · refine (Registry.register_iff_founded new circle).2.1 fun founded => ?_
    have item : circle.Extends circle.classes[2] circle.classes[1] := ⟨"Item", rfl, rfl⟩
    have container : circle.Extends circle.classes[1] circle.classes[2] := ⟨"Container", rfl, rfl⟩
    obtain ⟨above, lineage⟩ := founded.lineages "Item" _ rfl
    exact lineage.not_above_itself (.head container (.single item))

end Shelves

end ScriptBridge
