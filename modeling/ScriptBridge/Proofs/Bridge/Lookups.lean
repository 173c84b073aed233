import ScriptBridge.Proofs.Bridge.Modes
import ScriptBridge.Proofs.Codec.Leaves
import ScriptBridge.Proofs.Group.Records
/-!
Elements that are addressed without asking for them, and elements that are fetched.

The getter of one element, by index or by identifier, first checks its argument and puts the words
together that address the element. Neither depends on whether the handler asks for elements
(`Call.perform_locates`). Only then a handler that reduces executions reads the specifier as it is,
and any other one sends a fragment that returns it (`Call.Plan.locate`). So both address the same
element or refuse it alike (`located_alike`). An index is good if the number of its item, which
counts from one, is an index too (`Call.atIndex`).
-/
namespace ScriptBridge

open History

/-- The first parameter is an index. -/
def Method.ByIndex (m : Method) : Prop :=
  ∃ type ∈ [ValueType.integer, .short, .long],
    m.parameters.head?.map Parameter.valueType = some type

/-- The first parameter is an identifier. -/
def Method.ById (m : Method) : Prop :=
  m.parameters.head?.map Parameter.valueType = some (.named "id")

/-- A getter of one object of an interface. -/
structure Method.Locates (m : Method) (interface : String) : Prop where
  kind : m.kind = .element
  getter : m.startsWith "get" = true
  returns : m.returns = .object interface
  selects : m.ByIndex ∨ m.ById

namespace Call

/-- What addressing an element by its index comes to, up to the place of the object. -/
def atIndex (md : Model) (m : Method) (arguments : List Value) : Except ScriptError String :=
  match arguments.head?.bind Value.integer? with
  | none => .error (.arguments m.name .noIndex)
  | some index =>
    if 0 ≤ index.toInt ∧ index.toInt < 2 ^ 63 - 1 then
      .ok ("item " ++ Number.showInt (index.toInt + 1) ++ " of " ++
        (declaredPlural? md m.returns).getD (guessedPlural md m.returns m))
    else .error (.indexOutOfBounds index)

/-- What addressing an element by its identifier comes to, up to the place of the object. -/
def withId (m : Method) (arguments : List Value) : Except ScriptError String :=
  match arguments.head? with
  | some (.id n) =>
    match m.scriptType with
    | some type => .ok (type ++ " id " ++ Number.showInt n.toInt)
    | none => .error (.config (.methodWithoutType m.name))
  | _ => .error (.arguments m.name .noId)

/-- What is done about an element once it is addressed. -/
def Plan.locate (h : Handler) (returns : ValueType) : Except ScriptError String → Plan
  | .error e => .refuse e
  | .ok words =>
    let specifier := words ++ h.ofClause
    if h.reduces then .read returns { object := some specifier, application := h.application }
    else .send ("return " ++ specifier) returns

/-! ## Addresses -/

theorem index_refused_iff (index : Int64) :
    (index < 0 ∨ index = Int64.maxValue) ↔ ¬(0 ≤ index.toInt ∧ index.toInt < 2 ^ 63 - 1) := by
  have upper := Int64.toInt_le index
  rw [Int64.lt_iff_toInt_lt, ← Int64.toInt_inj]
  have zero : (0 : Int64).toInt = 0 := rfl
  have largest : Int64.maxValue.toInt = 2 ^ 63 - 1 := rfl
  omega

variable {md : Model} {m : Method}

theorem run_itemNumber (argument : Option Value) (scene : Scene) :
    (itemNumber m argument).run scene =
      (match argument.bind Value.integer? with
        | none => .error (.arguments m.name .noIndex)
        | some index =>
          if 0 ≤ index.toInt ∧ index.toInt < 2 ^ 63 - 1 then .ok (Number.showInt (index.toInt + 1))
          else .error (.indexOutOfBounds index), scene) := by
  rw [itemNumber]
  cases argument.bind Value.integer? with
  | none => rfl
  | some index =>
    have refused := index_refused_iff index
    by_cases good : 0 ≤ index.toInt ∧ index.toInt < 2 ^ 63 - 1
    · simp only [if_pos good, if_neg fun bad => refused.mp bad good, run_pure]
    · simp only [if_neg good, if_pos (refused.mpr good), run_throw]

/-- Finding a plural never fails, and logs at most. -/
theorem run_plural (md : Model) (element : ValueType) (m : Method) (b : Bridge) :
    ∃ ready, b.Remarks ready ∧ ∀ session h, (plural md element m).run ⟨b, session, h⟩ =
      (.ok ((declaredPlural? md element).getD (guessedPlural md element m)),
        ⟨ready, session, h⟩) := by
  rw [plural]
  cases declaredPlural? md element with
  | some plural => exact ⟨b, .refl b, fun _ _ => rfl⟩
  | none => exact ⟨_, .log b _ _, fun _ _ => rfl⟩

theorem run_lookup (words : String) (returns : ValueType) (scene : Scene) :
    (lookup (words ++ scene.handler.ofClause) returns).run scene =
      (Plan.locate scene.handler returns (.ok words)).call.run scene := by
  rw [lookup, run_bind_ok (run_handler scene), Plan.locate]
  split <;> rfl

theorem run_elementAt (md : Model) (m : Method) (arguments : List Value) (b : Bridge) :
    ∃ ready, b.Remarks ready ∧ ∀ session h, (elementAt md m arguments).run ⟨b, session, h⟩ =
      (Plan.locate h m.returns (atIndex md m arguments)).call.run ⟨ready, session, h⟩ := by
  have numbered := run_itemNumber (m := m) arguments.head?
  rw [atIndex]
  cases given : arguments.head?.bind Value.integer? with
  | none =>
    refine ⟨b, .refl b, fun session h => ?_⟩
    rw [elementAt, run_bind, numbered, given]
    rfl
  | some index =>
    dsimp only
    rw [given] at numbered
    by_cases good : 0 ≤ index.toInt ∧ index.toInt < 2 ^ 63 - 1
    · obtain ⟨ready, remarks, named⟩ := run_plural md m.returns m b
      refine ⟨ready, remarks, fun session h => ?_⟩
      simp only [if_pos good] at numbered ⊢
      rw [elementAt, run_bind_ok (numbered _), run_bind_ok (named session h),
        run_bind_ok (run_handler _), run_lookup]
    · refine ⟨b, .refl b, fun session h => ?_⟩
      simp only [if_neg good] at numbered ⊢
      rw [elementAt, run_bind, numbered]
      rfl

theorem run_elementWithId (m : Method) (arguments : List Value) (scene : Scene) :
    (elementWithId m arguments).run scene =
      (Plan.locate scene.handler m.returns (withId m arguments)).call.run scene := by
  rw [elementWithId, withId]
  cases arguments.head? with
  | none => rfl
  | some argument =>
    cases argument with
    | id n =>
      have typed : (scriptType m).run scene =
          (match m.scriptType with
            | some type => .ok type
            | none => .error (.config (.methodWithoutType m.name)), scene) := by
        rw [scriptType]
        cases m.scriptType <;> rfl
      dsimp only
      rw [run_bind, typed]
      cases m.scriptType with
      | none => rfl
      | some type =>
        dsimp only
        rw [run_bind_ok (run_handler scene), run_lookup]
    | _ => rfl

/-- An index addresses an item, by its number from one, exactly if that number is an index too. -/
theorem atIndex_iff {arguments : List Value} {index : Int64}
    (given : arguments.head?.bind Value.integer? = some index) (place : String) :
    ((∃ s, (atIndex md m arguments).map (· ++ place) = .ok s) ↔
        0 ≤ index.toInt ∧ index.toInt < 2 ^ 63 - 1) ∧
      ∀ s, (atIndex md m arguments).map (· ++ place) = .ok s →
        ∃ rest, s = "item " ++ Number.showInt (index.toInt + 1) ++ " of " ++ rest := by
  rw [atIndex, given]
  dsimp only
  split
  · next good =>
    refine ⟨iff_of_true ⟨_, rfl⟩ good, fun s same => ?_⟩
    cases same
    exact ⟨_, String.append_assoc ..⟩
  · next bad =>
    refine ⟨iff_of_false ?_ bad, fun _ => nofun⟩
    rintro ⟨_, same⟩
    cases same

/-- Whatever follows the words that address an element, they are no words for nothing. -/
theorem isMissing_address {arguments : List Value} {words : String}
    (addressed : atIndex md m arguments = .ok words ∨ withId m arguments = .ok words)
    (place : String) : isMissing (some (words ++ place)) = false := by
  obtain ⟨letter, visible, other, inside⟩ : ∃ c, Text.isBlank c = false ∧
      (c ∉ "null".toList ∧ c ∉ missingValue.toList) ∧ c ∈ words.toList := by
    rcases addressed with addressed | addressed
    · refine ⟨'t', by decide, by decide, ?_⟩
      unfold atIndex at addressed
      split at addressed
      · cases addressed
      · split at addressed
        · cases addressed
          simp
        · cases addressed
    · refine ⟨'d', by decide, by decide, ?_⟩
      unfold withId at addressed
      split at addressed
      · split at addressed
        · cases addressed
          simp
        · cases addressed
      · cases addressed
  refine Group.isMissing_of_mem visible other ?_
  rw [String.toList_append]
  exact List.mem_append_left _ inside

/-! ## Getters of one element -/

/-- A getter of one element addresses it, or fails to, whatever the handler is. -/
theorem perform_locates {interface : String} (locates : m.Locates interface) (md : Model)
    (arguments : List Value) (b : Bridge) :
    ∃ outcome ready, b.Remarks ready ∧
      (outcome = atIndex md m arguments ∨ ¬m.ByIndex ∧ outcome = withId m arguments) ∧
      ∀ session h, (perform md m arguments).run ⟨b, session, h⟩ =
        (Plan.locate h m.returns outcome).call.run ⟨ready, session, h⟩ := by
  have element : perform md m arguments = getElements md m arguments := by
    rw [perform_element locates.kind, invokeElement, if_pos locates.getter]
  rw [element]
  rcases locates.selects with ⟨type, index, first⟩ | first
  · obtain ⟨ready, remarks, ran⟩ := run_elementAt md m arguments b
    refine ⟨_, ready, remarks, .inl rfl, fun session h => ?_⟩
    rw [← ran]
    simp only [List.mem_cons, List.not_mem_nil, or_false] at index
    rcases index with rfl | rfl | rfl <;> simp only [getElements, locates.returns, first]
  · rw [Method.ById] at first
    refine ⟨_, b, .refl b, .inr ⟨?_, rfl⟩, fun session h => ?_⟩
    · rintro ⟨type, index, other⟩
      obtain rfl : ValueType.named "id" = type := Option.some.inj (first.symm.trans other)
      simp at index
    · rw [← run_elementWithId m arguments ⟨b, session, h⟩]
      simp only [getElements, locates.returns, first]

theorem decode_specifier {b : Bridge} {interface specifier : String} {application : Option String}
    (uncoded : Codec.find? b.codecList (.object interface) = none)
    (known : b.applications.hasInterface application interface = true)
    (present : isMissing (some specifier) = false) :
    b.decode (.object interface) { object := some specifier, application } =
      .ok (.object { interface, reference := { object := some specifier, application } }) := by
  rw [Bridge.decode, Codec.decodeAs_object _ _ uncoded, Codec.decodeObject]
  simp only [present, Bool.false_eq_true, if_false, known, if_true]

section
variable {b ready : Bridge} (remarks : b.Remarks ready) (h : Handler) (interface words : String)
include remarks

/-- A handler that reduces executions reads the specifier, which executes nothing. -/
theorem locate_reducing :
    let reducing : Handler := { h with reduces := true }
    let done := ((Plan.locate reducing (.object interface) (.ok words)).call >>= internResult).run
      ⟨ready, none, reducing⟩
    b.Remarks done.2.bridge ∧
      done.1 = (b.decode (.object interface)
        { object := some (words ++ h.ofClause), application := h.application }).map
          b.internedResult := by
  intro reducing done
  let reference : Reference :=
    { object := some (words ++ h.ofClause), application := h.application }
  have read : done = (decode (.object interface) reference >>= internResult).run
      ⟨ready, none, reducing⟩ := rfl
  obtain ⟨_, _, interning, ran⟩ := closed_reads.bind
    (closed_reads.decode (.object interface) reference) closed_reads.internResult ready reducing
  obtain ⟨_, -, continued⟩ := remarks.quiet
  refine ⟨remarks.trans ((congrArg (·.2.bridge) (ran none)) ▸ interning), ?_⟩
  rw [read, run_bind, run_decode, continued.decode_eq]
  cases b.decode (.object interface) reference with
  | error e => rfl
  | ok value =>
    rw [← continued.internedResult_eq]
    exact run_internResult value _

/-- A handler that does not reduce them sends the fragment that returns what is specified. -/
theorem locate_executing :
    let executing : Handler := { h with reduces := false }
    let scene : Scene := ⟨b, none, executing⟩
    let done := ((Plan.locate executing (.object interface) (.ok words)).call >>= internResult).run
      ⟨ready, none, executing⟩
    let fragment := scene.fragment ("return " ++ (words ++ h.ofClause))
    fragments (b.since done.2.bridge) = [fragment] ∧
      scripts (b.since done.2.bridge) = [fragment.wrapped] := by
  intro executing scene done fragment
  have within : (Plan.send ("return " ++ (words ++ h.ofClause)) (.object interface)).Within
      fun returns => returns.isVoid = false := rfl
  have attends : scene.Attends := fun _ inSession => by cases inSession
  obtain ⟨built, sent, -⟩ := Plan.prepared_alike within remarks attends
  exact ⟨built, sent⟩

end

end Call

/-- **Lookups with and without execution address the same element.** Outside of sessions, the getter
of one element first either refuses its arguments or makes a specifier of them, whether or not the
handler reduces executions. If they are refused both lookups fail with that error and do nothing but
log. Otherwise the one that reduces executions does nothing but log, and gives what the specifier,
in the handler's application, is decoded to; that is the object of the specifier, unless a codec is
installed for its interface. The other one sends the fragment that returns this specifier. An index
is refused exactly if it is negative or the largest one, and else the specifier starts with its
number from one. -/
theorem located_alike {b : Bridge} {h : Handler} {md : Model} {m : Method}
    {method interface : String}
    (resolved : b.applications.resolve? h.application h.object.interface = some md)
    (declared : md.method? h.object.interface method = some m) (locates : m.Locates interface)
    (known : b.applications.hasInterface h.application interface = true)
    (arguments : List Value) :
    let far : Scene := ⟨b, none, { h with reduces := false }⟩
    let built := (Call.invoke method arguments).run ⟨b, none, { h with reduces := true }⟩
    let fetched := (Call.invoke method arguments).run far
    ∃ outcome : Except ScriptError String,
      b.Remarks built.2.bridge ∧
      (∀ e, outcome = .error e →
        built.1 = .error e ∧ fetched.1 = .error e ∧ b.Remarks fetched.2.bridge) ∧
      (∀ s, outcome = .ok s →
        let reference : Reference := { object := some s, application := h.application }
        built.1 = (b.decode (.object interface) reference).map b.internedResult ∧
        (Codec.find? b.codecList (.object interface) = none →
          built.1 = .ok (.object { interface, reference })) ∧
        fragments (b.since fetched.2.bridge) = [far.fragment ("return " ++ s)] ∧
        scripts (b.since fetched.2.bridge) = [(far.fragment ("return " ++ s)).wrapped]) ∧
      (m.ByIndex → ∀ index, arguments.head?.bind Value.integer? = some index →
        ((∃ s, outcome = .ok s) ↔ 0 ≤ index.toInt ∧ index.toInt < 2 ^ 63 - 1) ∧
        ∀ s, outcome = .ok s →
          ∃ rest, s = "item " ++ Number.showInt (index.toInt + 1) ++ " of " ++ rest) := by
  intro far built fetched
  obtain ⟨address, ready, remarks, origin, ran⟩ :=
    Call.perform_locates locates md arguments b
  have invoked (reduces : Bool) :
      (Call.invoke method arguments).run ⟨b, none, { h with reduces }⟩ =
        ((Call.Plan.locate { h with reduces } (.object interface) address).call >>=
          Call.internResult).run ⟨ready, none, { h with reduces }⟩ := by
    rw [Call.run_invoke resolved declared, Call.run_bind, ran, locates.returns, ← Call.run_bind]
  have near : built = _ := invoked true
  have away : fetched = _ := invoked false
  refine ⟨address.map (· ++ h.ofClause), ?_, fun e refused => ?_, fun s addressed => ?_,
    fun byIndex index given => ?_⟩
  · rw [near]
    cases address with
    | error e => exact remarks
    | ok words => exact (Call.locate_reducing remarks h interface words).1
  · rw [near, away]
    cases address with
    | error _ =>
      cases refused
      exact ⟨rfl, rfl, remarks⟩
    | ok words => cases refused
  · obtain ⟨words, rfl, rfl⟩ := ok_of_map addressed
    obtain ⟨-, gives⟩ := Call.locate_reducing remarks h interface words
    obtain ⟨composed, sent⟩ := Call.locate_executing remarks h interface words
    rw [← near] at gives
    rw [← away] at composed sent
    refine ⟨gives, fun uncoded => ?_, composed, sent⟩
    have present : isMissing (some (words ++ h.ofClause)) = false :=
      Call.isMissing_address (origin.imp Eq.symm fun other => other.2.symm) h.ofClause
    exact gives.trans (congrArg _ (Call.decode_specifier uncoded known present))
  · rw [origin.resolve_right fun other => other.1 byIndex]
    exact Call.atIndex_iff given h.ofClause

namespace Desk

def reference : String := "application \"Desk\""

/-- An application with windows, whose class names no plural. -/
def dictionary : Dictionary where
  interface := "Desk"
  classes := [
    { interface := "Desk", name := some "application",
      methods := [
        { name := "get_window", kind := .element, parameters := [{ valueType := .integer }],
          returns := .object "Window" }] },
    { interface := "Window", name := some "window" }]

def model : Model := (Model.build dictionary reference).toOption.getD default

def bridge : Bridge :=
  ((Bridge.new (Config.default none) (.rehearsal [])).register dictionary "Desk").2

def desk : Handler where
  object := { interface := "Desk", reference := .root reference }
  reduces := true

def getter : Method := dictionary.classes[0].methods[0]

theorem getter_locates : getter.Locates "Window" where
  kind := rfl
  getter := by decide
  returns := rfl
  selects := .inl ⟨.integer, by simp, rfl⟩

def asked (b : Bridge) (reduces : Bool) :=
  (Call.invoke "get_window" [.short 0]).run ⟨b, none, { desk with reduces }⟩

def window : Value :=
  .object { interface := "Window",
            reference := { object := some "item 1 of windows", application := some reference } }

/-- The first window is addressed alike. -/
theorem first_window :
    (asked bridge true).1 = .ok window ∧
      scripts (bridge.since (asked bridge false).2.bridge) =
        [(Scene.fragment ⟨bridge, none, desk⟩ "return item 1 of windows").wrapped] := by
  obtain ⟨outcome, -, -, located, numbered⟩ := located_alike
    (rfl : bridge.applications.resolve? desk.application "Desk" = some model)
    (rfl : model.method? "Desk" "get_window" = some getter) getter_locates rfl [.short 0]
  obtain ⟨good, -⟩ := numbered ⟨.integer, by simp, rfl⟩ 0 rfl
  obtain ⟨s, rfl⟩ := good.mpr (by decide)
  obtain ⟨-, object, -, sent⟩ := located s rfl
  have given : (asked bridge true).1 = .ok window := by rfl
  have same := (object rfl).symm.trans given
  cases same
  exact ⟨given, sent⟩

/-- A codec for windows, which gives texts. -/
def captions : Codec where
  valueType := .object "Window"
  scriptTypes := []
  decode r := .ok (.text ("the " ++ r.objectText))
  encode _ := .ok "the window"

def captioned : Bridge := bridge.addCodec { handle := 64, item := captions }

/-- With that codec the same getter gives no object. -/
theorem caption_of_window :
    captioned.applications.resolve? desk.application "Desk" = some model ∧
      model.method? "Desk" "get_window" = some getter ∧ getter.Locates "Window" ∧
      captioned.applications.hasInterface desk.application "Window" = true ∧
      ¬((∃ e, (asked captioned true).1 = .error e) ∨
        ∃ s, (asked captioned true).1 = .ok (.object {
          interface := "Window"
          reference := { object := some s, application := some reference } })) := by
  have given : (asked captioned true).1 = .ok (.text "the item 1 of windows") := by rfl
  refine ⟨rfl, rfl, getter_locates, rfl, ?_⟩
  rintro (⟨e, failed⟩ | ⟨s, object⟩)
  · cases given.symm.trans failed
  · cases given.symm.trans object

end Desk

end ScriptBridge
