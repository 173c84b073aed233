import ScriptBridge.Proofs.Bridge.Lookups
/-!
Four methods for the elements of one kind.

The elements of an object are listed, counted, fetched by their index and replaced there by four
methods, and each of them finds the words for the elements in its own way: from what a list holds,
from the getter whose name belongs to a counter, from what a getter returns, and from the second
parameter of a setter. Declared alike (`Accessors.Declared`), they all come to one place, and a
filter restricts or is refused in the same way for a list and its count (`elements_share_place`).

What such a method does is told by its preparations, which find something and log at most
(`Call.Finds`), and by the plan that they come to (`Call.ComesTo`).
-/
namespace ScriptBridge

open History

/-- The words for the elements of an interface: the plural of its class, or else the name of its
class, or else the class that a method declares for its elements, with an s. -/
def Model.pluralOf (md : Model) (element : String) (type : Option String) : String :=
  let c := md.dictionary.class? element
  (c.bind ClassEntry.plural).getD (((c.bind ClassEntry.name).or type).getD "item" ++ "s")

/-- The words that a filter puts after the elements; only text can restrict them. -/
def restriction? : Option Value → Option String
  | none => some ""
  | some .null => some ""
  | some (.text s) => some (if Text.trimmed s = "" then "" else " where " ++ s)
  | some _ => none

/-- Methods that list, count, fetch and replace elements. -/
structure Accessors where
  lister : Method
  counter : Method
  getter : Method
  setter : Method

/-- The methods are declared by an interface, for elements of one interface and one class in the
script language; the names of the list and of its counter end alike. -/
structure Accessors.Declared (a : Accessors) (md : Model) (interface element suffix : String)
    (type : Option String) : Prop where
  methods : ∀ m ∈ [a.lister, a.counter, a.getter, a.setter],
    md.method? interface m.name = some m ∧ m.kind = .element
  lists : a.lister.name = "get_" ++ suffix ∧ a.lister.returns = .list (.object element)
  filtered : a.lister.parameters.head?.map Parameter.valueType ∈ [none, some .text]
  counts : a.counter.name = "count_" ++ suffix
  gets : a.getter.startsWith "get" = true ∧ a.getter.returns = .object element ∧ a.getter.ByIndex
  sets : a.setter.startsWith "set" = true ∧
    a.setter.parameters[1]?.map Parameter.valueType = some (.object element)
  types : a.lister.scriptType = type ∧ a.getter.scriptType = type ∧ a.setter.scriptType = type

namespace Call

/-! ## Preparations and plans -/

/-- A preparation of a call has a result, on any bridge and in any session, and logs at most. -/
def Finds {α : Type} (h : Handler) (x : Call α) (result : Except ScriptError α) : Prop :=
  ∀ b, ∃ ready, b.Remarks ready ∧
    ∀ session, x.run ⟨b, session, h⟩ = (result, ⟨ready, session, h⟩)

/-- A call comes to a plan, on any bridge and in any session, and logs at most before that. -/
def ComesTo (h : Handler) (x : Call Value) (plan : Plan) : Prop :=
  ∀ b, ∃ ready, b.Remarks ready ∧
    ∀ session, x.run ⟨b, session, h⟩ = plan.call.run ⟨ready, session, h⟩

section
variable {h : Handler} {md : Model} {m : Method}

theorem ComesTo.execute {words text : String} (same : words = text) (returns : ValueType) :
    ComesTo h (execute words returns) (.send text returns) :=
  fun b => ⟨b, .refl b, fun _ => by rw [same]; rfl⟩

theorem Finds.of_run {α : Type} {x : Call α} {result : Except ScriptError α}
    (ran : ∀ scene : Scene, scene.handler = h → x.run scene = (result, scene)) :
    Finds h x result :=
  fun b => ⟨b, .refl b, fun session => ran ⟨b, session, h⟩ rfl⟩

theorem Finds.andThen {α : Type} {x : Call α} {a : α} {f : α → Call Value} {plan : Plan}
    (hx : Finds h x (.ok a)) (hf : ComesTo h (f a) plan) : ComesTo h (x >>= f) plan := by
  intro b
  obtain ⟨middle, remarks, ran⟩ := hx b
  obtain ⟨ready, remarks', ran'⟩ := hf middle
  exact ⟨ready, remarks.trans remarks',
    fun session => (run_bind_ok (ran session) f).trans (ran' session)⟩

theorem Finds.refused {α : Type} {x : Call α} {e : ScriptError} (hx : Finds h x (.error e))
    (f : α → Call Value) : ComesTo h (x >>= f) (.refuse e) := by
  intro b
  obtain ⟨ready, remarks, ran⟩ := hx b
  refine ⟨ready, remarks, fun session => ?_⟩
  rw [run_bind, ran]
  rfl

theorem finds_handler (h : Handler) : Finds h handler (.ok h) := .of_run fun scene same => by
  rw [run_handler, same]

theorem finds_plural (h : Handler) (md : Model) (element : String) (m : Method) :
    Finds h (plural md (.object element) m) (.ok (md.pluralOf element m.scriptType)) := by
  intro b
  obtain ⟨ready, remarks, ran⟩ := run_plural md (.object element) m b
  exact ⟨ready, remarks, fun session => ran session h⟩

/-- What a restriction of elements comes to. -/
def restricted (m : Method) (filter : Option Value) (plan : String → Plan) : Plan :=
  match restriction? filter with
  | some words => plan words
  | none => .refuse (.arguments m.name .filterNotText)

theorem comesTo_whereClause {filter : Option Value} {f : String → Call Value}
    {plan : String → Plan} (hf : ∀ words, ComesTo h (f words) (plan words)) :
    ComesTo h (whereClause m filter >>= f) (restricted m filter plan) := by
  have ran (scene : Scene) : (whereClause m filter).run scene =
      (match restriction? filter with
        | some words => .ok words
        | none => .error (.arguments m.name .filterNotText), scene) := by
    cases filter with
    | none => rfl
    | some argument => cases argument <;> rfl
  rw [restricted]
  cases found : restriction? filter with
  | some words =>
    rw [found] at ran
    exact (Finds.of_run fun scene _ => ran scene).andThen (hf words)
  | none =>
    rw [found] at ran
    exact (Finds.of_run fun scene _ => ran scene).refused f

theorem finds_itemNumber {argument : Option Value} {index : Int64}
    (given : argument.bind Value.integer? = some index)
    (good : 0 ≤ index.toInt ∧ index.toInt < 2 ^ 63 - 1) :
    Finds h (itemNumber m argument) (.ok (Number.showInt (index.toInt + 1))) :=
  .of_run fun scene _ => by
    rw [run_itemNumber, given]
    simp only [if_pos good]

/-! ## The four methods -/

theorem comesTo_elementList (h : Handler) (md : Model) (m : Method) (element : String)
    (arguments : List Value) :
    ComesTo h (elementList md m (.object element) arguments)
      (restricted m arguments.head? fun words =>
        .send ("return " ++ (md.pluralOf element m.scriptType ++ h.ofClause) ++ words)
          m.returns) := by
  refine (finds_plural h md element m).andThen (comesTo_whereClause fun words => ?_)
  exact (finds_handler h).andThen (.execute (by simp only [String.append_assoc]) _)

theorem comesTo_countElements {getter : Method} {element : String}
    (counted : countedGetter md h.object.interface m = pure getter)
    (lists : getter.returns = .list (.object element)) (arguments : List Value) :
    ComesTo h (countElements md m arguments) (restricted m arguments.head? fun words =>
      .send ("count " ++ (md.pluralOf element getter.scriptType ++ h.ofClause) ++ words)
        m.returns) := by
  refine (finds_handler h).andThen ?_
  rw [counted]
  refine (Finds.of_run fun _ _ => rfl : Finds h (pure getter) (.ok getter)).andThen ?_
  rw [lists]
  exact (finds_plural h md element getter).andThen (comesTo_whereClause fun words =>
    .execute (by simp only [String.append_assoc]) _)

theorem comesTo_setElement {arguments : List Value} {index : Int64} {element target : String}
    (given : arguments.head?.bind Value.integer? = some index)
    (good : 0 ≤ index.toInt ∧ index.toInt < 2 ^ 63 - 1)
    (sets : m.parameters[1]?.map Parameter.valueType = some (.object element))
    (referred : (arguments[1]?.bind Value.reference?).bind Reference.object = some target) :
    ComesTo h (setElement md m arguments)
      (.send ("set " ++ ("item " ++ Number.showInt (index.toInt + 1) ++ " of " ++
        (md.pluralOf element m.scriptType ++ h.ofClause)) ++ " to (" ++ target ++ ")")
        m.returns) := by
  refine (finds_itemNumber given good).andThen ?_
  rw [referred]
  dsimp only
  rw [sets]
  -- The specifier of the getter starts in the middle of the setter's first words.
  have words : "set item " = "set " ++ "item " := rfl
  exact (finds_plural h md element m).andThen ((finds_handler h).andThen
    (.execute (by simp only [words, String.append_assoc]) _))

/-- A counter counts what the getter gives whose name ends as its own does. -/
theorem countedGetter_eq {interface suffix : String} {getter : Method}
    (counts : m.name = "count_" ++ suffix)
    (declared : md.method? interface ("get_" ++ suffix) = some getter) :
    countedGetter md interface m = pure getter := by
  have letters : m.name.toList = 'c' :: 'o' :: 'u' :: 'n' :: 't' :: '_' :: suffix.toList := by
    rw [counts, String.toList_append]
    rfl
  -- The underscore ends the removal, however the suffix starts.
  have rest : withoutCount m.name.toList.length m.name.toList = '_' :: suffix.toList := by
    rw [letters]
    rfl
  have first : "get" ++ String.ofList ('_' :: suffix.toList) = "get_" ++ suffix := by
    rw [← String.toList_inj]
    simp
  rw [countedGetter, getterNames, rest, first, List.findSome?_cons, declared]

end

/-! ## Invocations -/

theorem execute_built (text : String) (returns : ValueType) (scene : Scene) :
    ∃ history, scene.bridge.Continues history ((execute text returns).run scene).2.bridge ∧
      fragments history = [scene.fragment text] := by
  have noted := scene.bridge.continues_note (.built (scene.fragment text))
  cases inSession : scene.session with
  | none =>
    obtain ⟨history, ran, continued⟩ :=
      (scene.noted text).continues_run (scene.fragment text).wrapped false
    rw [run_execute_alone inSession]
    exact ⟨_, noted.trans continued, (ran.of_built (scene.fragment text)).1⟩
  | some session =>
    obtain ⟨history, ran, continued⟩ :=
      (scene.noted text).continues_flush (session.add (scene.fragment text).wrapped)
    rw [run_execute_batched inSession]
    dsimp only
    split
    · exact ⟨_, noted, rfl⟩
    · exact ⟨_, noted.trans continued, (ran.of_built (scene.fragment text)).1⟩

/-- What a plan gives that executes nothing. -/
def Plan.given? (b : Bridge) : Plan → Option (Except ScriptError Value)
  | refuse e => some (.error e)
  | read target reference => some (b.decode target reference)
  | send _ _ => none

theorem Plan.built (plan : Plan) (scene : Scene) :
    ∃ history, scene.bridge.Continues history (plan.call.run scene).2.bridge ∧
      fragments history = plan.text?.toList.map scene.fragment ∧
      ∀ given, plan.given? scene.bridge = some given → (plan.call.run scene).1 = given := by
  cases plan with
  | refuse e => exact ⟨[], .refl _, rfl, fun _ same => Option.some.inj same⟩
  | read target reference =>
    rw [call, run_decode]
    exact ⟨[], .refl _, rfl, fun _ same => Option.some.inj same⟩
  | send text returns =>
    obtain ⟨history, continued, built⟩ := execute_built text returns scene
    exact ⟨history, continued, built, fun _ none => by cases none⟩

/-- An invocation builds the fragment of its plan, in any session and whatever is made of it, and
gives what the plan gives. -/
theorem ComesTo.invoke {b : Bridge} {h : Handler} {md : Model} {m : Method} {method : String}
    {arguments : List Value} {plan : Plan}
    (resolved : b.applications.resolve? h.application h.object.interface = some md)
    (declared : md.method? h.object.interface method = some m)
    (comes : ComesTo h (perform md m arguments) plan) (session : Option Session) :
    let scene : Scene := ⟨b, session, h⟩
    let done := (invoke method arguments).run scene
    fragments (b.since done.2.bridge) = plan.text?.toList.map scene.fragment ∧
      ∀ given, plan.given? b = some given → done.1 = given.map b.internedResult := by
  intro scene done
  obtain ⟨ready, remarks, ran⟩ := comes b
  obtain ⟨before, quiet, prepared⟩ := remarks.quiet
  obtain ⟨history, continued, built, gives⟩ := plan.built ⟨ready, session, h⟩
  obtain ⟨rest, quiet', continued', interned⟩ := run_interned plan.call ⟨ready, session, h⟩
  have all : done = (plan.call >>= internResult).run ⟨ready, session, h⟩ := by
    rw [show done = _ from run_invoke resolved declared arguments, run_bind, ran, ← run_bind]
  rw [← all] at continued' interned
  -- What is added before and after the plan is carried out are remarks.
  have since : b.since done.2.bridge = before ++ history ++ rest :=
    ((prepared.trans continued).trans continued').since_eq
  refine ⟨?_, fun given planned => ?_⟩
  · rw [since, fragments_append, fragments_append, quiet.fragments_eq, quiet'.fragments_eq, built,
      prepared.fragment_eq, List.nil_append, List.append_nil]
  · have planned' : plan.given? ready = some given := by
      rw [← planned]
      cases plan with
      | read target reference => rw [Plan.given?, Plan.given?, prepared.decode_eq]
      | _ => rfl
    rw [interned, gives given planned', (prepared.trans continued).internedResult_eq]

end Call

/-! ## One collection -/

namespace Accessors.Declared

open Call

variable {a : Accessors} {md : Model} {interface element suffix : String} {type : Option String}
  (h : a.Declared md interface element suffix type) (arguments : List Value)
include h

theorem perform_lister :
    perform md a.lister arguments = elementList md a.lister (.object element) arguments := by
  obtain ⟨-, kind⟩ := h.methods a.lister (by simp)
  have getter : a.lister.startsWith "get" = true := by
    rw [Method.startsWith, h.lists.1, String.toList_append]
    rfl
  rw [perform_element kind, invokeElement, if_pos getter]
  have filtered := h.filtered
  simp only [List.mem_cons, List.not_mem_nil, or_false] at filtered
  rcases filtered with first | first <;> simp only [getElements, h.lists.2, first]

theorem perform_counter :
    perform md a.counter arguments = countElements md a.counter arguments := by
  obtain ⟨-, kind⟩ := h.methods a.counter (by simp)
  have word (word : String) : a.counter.startsWith word =
      word.toList.isPrefixOf ("count_".toList ++ suffix.toList) := by
    rw [Method.startsWith, h.counts, String.toList_append]
  rw [perform_element kind, invokeElement, word, word, word]
  rfl

theorem perform_setter : perform md a.setter arguments = setElement md a.setter arguments := by
  obtain ⟨-, kind⟩ := h.methods a.setter (by simp)
  obtain ⟨rest, letters⟩ := List.isPrefixOf_iff_prefix.mp h.sets.1
  have getter : a.setter.startsWith "get" = false := by
    rw [Method.startsWith, ← letters]
    rfl
  rw [perform_element kind, invokeElement, getter, if_neg Bool.false_ne_true, if_pos h.sets.1]

theorem locates : a.getter.Locates element where
  kind := (h.methods a.getter (by simp)).2
  getter := h.gets.1
  returns := h.gets.2.1
  selects := .inl h.gets.2.2

theorem comesTo_getter {index : Int64} (given : arguments.head?.bind Value.integer? = some index)
    (good : 0 ≤ index.toInt ∧ index.toInt < 2 ^ 63 - 1) (handler : Handler) :
    ComesTo handler (perform md a.getter arguments) (Plan.locate handler (.object element)
      (.ok ("item " ++ Number.showInt (index.toInt + 1) ++ " of " ++
        md.pluralOf element type))) := by
  have address : atIndex md a.getter arguments =
      .ok ("item " ++ Number.showInt (index.toInt + 1) ++ " of " ++ md.pluralOf element type) := by
    rw [atIndex, given]
    dsimp only
    rw [if_pos good, h.gets.2.1, ← h.types.2.1]
    rfl
  intro b
  obtain ⟨outcome, ready, remarks, origin, ran⟩ := perform_locates h.locates md arguments b
  obtain rfl := origin.resolve_right fun other => other.1 h.gets.2.2
  refine ⟨ready, remarks, fun session => ?_⟩
  rw [ran, address, h.gets.2.1]

end Accessors.Declared

/-- **List, count, index and set address one collection.** Of methods that are declared alike, each
one comes to the same place, which is the plural of the elements in the object, in any session. A
filter that is text, blank or missing puts the same words after that place for the list and for its
counter; any other one is refused by both, and nothing is built. A valid index makes a specifier of
the number of the item, from one, and of that place. The getter returns what is specified, or reads
the specifier itself if the handler reduces executions; the setter sets it to its target. -/
theorem elements_share_place {b : Bridge} {h : Handler} {md : Model} {a : Accessors}
    {element suffix : String} {type : Option String}
    (resolved : b.applications.resolve? h.application h.object.interface = some md)
    (alike : a.Declared md h.object.interface element suffix type) (session : Option Session)
    (arguments : List Value) :
    let scene : Scene := ⟨b, session, h⟩
    let invoked (m : Method) := (Call.invoke m.name arguments).run scene
    let built (m : Method) := fragments (b.since (invoked m).2.bridge)
    let place := md.pluralOf element type ++ h.ofClause
    (∀ words, restriction? arguments.head? = some words →
      built a.lister = [scene.fragment ("return " ++ place ++ words)] ∧
        built a.counter = [scene.fragment ("count " ++ place ++ words)]) ∧
    (restriction? arguments.head? = none →
      ∀ m ∈ [a.lister, a.counter],
        built m = [] ∧ (invoked m).1 = .error (.arguments m.name .filterNotText)) ∧
    ∀ index, arguments.head?.bind Value.integer? = some index →
      0 ≤ index.toInt → index.toInt < 2 ^ 63 - 1 →
      let specifier := "item " ++ Number.showInt (index.toInt + 1) ++ " of " ++ place
      (h.reduces = false → built a.getter = [scene.fragment ("return " ++ specifier)]) ∧
      (h.reduces = true → built a.getter = [] ∧
        (invoked a.getter).1 = (b.decode (.object element)
          { object := some specifier, application := h.application }).map b.internedResult) ∧
      ∀ target, (arguments[1]?.bind Value.reference?).bind Reference.object = some target →
        built a.setter = [scene.fragment ("set " ++ specifier ++ " to (" ++ target ++ ")")] := by
  intro scene invoked built place
  have declared (m : Method) (known : m ∈ [a.lister, a.counter, a.getter, a.setter]) :
      md.method? h.object.interface m.name = some m := (alike.methods m known).1
  have listing := Call.comesTo_elementList h md a.lister element arguments
  rw [← alike.perform_lister, alike.types.1] at listing
  obtain ⟨listed, refusedList⟩ := listing.invoke resolved (declared _ (by simp)) session
  have counted : Call.countedGetter md h.object.interface a.counter = pure a.lister :=
    Call.countedGetter_eq alike.counts (alike.lists.1 ▸ declared a.lister (by simp))
  have counting := Call.comesTo_countElements counted alike.lists.2 arguments
  rw [← alike.perform_counter, alike.types.1] at counting
  obtain ⟨counted, refusedCount⟩ := counting.invoke resolved (declared _ (by simp)) session
  refine ⟨fun words found => ?_, fun found => ?_, fun index given lower upper => ?_⟩
  · rw [Call.restricted, found] at listed counted
    exact ⟨listed, counted⟩
  · rw [Call.restricted, found] at listed counted refusedList refusedCount
    simp only [List.forall_mem_cons]
    exact ⟨⟨listed, refusedList _ rfl⟩, ⟨counted, refusedCount _ rfl⟩, by simp⟩
  · have fetching := alike.comesTo_getter arguments given ⟨lower, upper⟩ h
    obtain ⟨fetched, read⟩ := fetching.invoke resolved (declared _ (by simp)) session
    intro specifier
    have same : "item " ++ Number.showInt (index.toInt + 1) ++ " of " ++
        md.pluralOf element type ++ h.ofClause = specifier := String.append_assoc ..
    rw [Call.Plan.locate, same] at fetched read
    refine ⟨fun asks => ?_, fun reduces => ?_, fun target referred => ?_⟩
    · rw [asks] at fetched
      exact fetched
    · rw [reduces] at fetched read
      exact ⟨fetched, read _ rfl⟩
    · have setting : Call.ComesTo h (Call.setElement md a.setter arguments) _ :=
        Call.comesTo_setElement given ⟨lower, upper⟩ alike.sets.2 referred
      rw [← alike.perform_setter, alike.types.2.2] at setting
      exact (setting.invoke resolved (declared _ (by simp)) session).1

namespace Gallery

def reference : String := "application \"Gallery\""

/-- An application with paintings in its rooms, whose class names no plural. -/
def dictionary : Dictionary where
  interface := "Gallery"
  classes := [
    { interface := "Gallery", name := some "application" },
    { interface := "Painting", name := some "painting" },
    { interface := "Room", name := some "room",
      methods := [
        { name := "get_paintings", kind := .element, scriptType := some "painting",
          parameters := [{ valueType := .text }], returns := .list (.object "Painting") },
        { name := "count_paintings", kind := .element, scriptType := some "painting",
          parameters := [{ valueType := .text }], returns := .integer },
        { name := "get_painting", kind := .element, scriptType := some "painting",
          parameters := [{ valueType := .integer }], returns := .object "Painting" },
        { name := "set_painting", kind := .element, scriptType := some "painting",
          parameters := [{ valueType := .integer }, { valueType := .object "Painting" }] }] }]

def model : Model := (Model.build dictionary reference).toOption.getD default

def bridge : Bridge :=
  ((Bridge.new (Config.default none) (.rehearsal [])).register dictionary "Gallery").2

def room : Handler where
  object := { interface := "Room",
              reference := { object := some "room 2", application := some reference } }
  reduces := false

def accessors : Accessors where
  lister := dictionary.classes[2].methods[0]
  counter := dictionary.classes[2].methods[1]
  getter := dictionary.classes[2].methods[2]
  setter := dictionary.classes[2].methods[3]

theorem accessors_declared :
    accessors.Declared model "Room" "Painting" "paintings" (some "painting") where
  methods m known := by
    simp only [List.mem_cons, List.not_mem_nil, or_false] at known
    rcases known with rfl | rfl | rfl | rfl <;> exact ⟨rfl, rfl⟩
  lists := ⟨rfl, rfl⟩
  filtered := by simp [accessors, dictionary]
  counts := rfl
  gets := ⟨by decide, rfl, .integer, by simp, rfl⟩
  sets := ⟨by decide, rfl⟩
  types := ⟨rfl, rfl, rfl⟩

/-- What a method builds. -/
def built (method : String) (arguments : List Value) : List Fragment :=
  fragments (bridge.since ((Call.invoke method arguments).run ⟨bridge, none, room⟩).2.bridge)

def fragment (text : String) : Fragment := Scene.fragment ⟨bridge, none, room⟩ text

/-- The paintings of a room, and one of them in the place of another. -/
theorem paintings_of_room :
    built "get_paintings" [.text "sold"] = [fragment "return paintings of room 2 where sold"] ∧
      built "count_paintings" [.text "sold"] =
        [fragment "count paintings of room 2 where sold"] ∧
      built "set_painting"
          [.short 0, .reference { object := some "painting 9", application := none }] =
        [fragment "set item 1 of paintings of room 2 to (painting 9)"] := by
  have resolved : bridge.applications.resolve? room.application "Room" = some model := by rfl
  obtain ⟨alike, -⟩ := elements_share_place resolved accessors_declared none [.text "sold"]
  obtain ⟨listed, counted⟩ := alike " where sold" (by rfl)
  obtain ⟨-, -, indexed⟩ := elements_share_place resolved accessors_declared none
    [.short 0, .reference { object := some "painting 9", application := none }]
  obtain ⟨-, -, replaced⟩ := indexed 0 rfl (by decide) (by decide)
  refine ⟨?_, ?_, ?_⟩
  · exact listed
  · exact counted
  · exact replaced "painting 9" rfl

end Gallery

end ScriptBridge
