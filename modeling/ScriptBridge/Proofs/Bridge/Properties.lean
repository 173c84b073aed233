import ScriptBridge.Proofs.Bridge.Calls
import ScriptBridge.Proofs.Codec.Records
import ScriptBridge.Proofs.Dictionary.Properties
import ScriptBridge.Proofs.Group.Records
/-!
The properties of an object account for every entry of the record that is answered.

Resolving the entries runs no script; it stops at the first entry that fails (`run_resolveEntries`).
The record that is answered names the class of its object, and from there on each key is looked up
in the lineage of that class. If the keys that the properties are given under differ, none of them
writes over another one, so that there are as many entries as there were in the record
(`properties_account`).
-/
namespace ScriptBridge

open Dictionary History

/-- What an entry of a record holds before its type is known. -/
def Handler.raw (h : Handler) (text : String) : Value :=
  .reference { object := some text, application := h.application }

/-- What becomes of an entry of a record in a chain of classes: it is read as its property declares,
or kept as it is if it has none. -/
def Scene.resolve (scene : Scene) (chain : List ClassEntry) (entry : String × String) :
    Except ScriptError (String × Value) :=
  match nearestProperty? chain entry.1 with
  | some p => (scene.read p.valueType entry.2).map fun value => (p.key, value)
  | none => .ok (entry.1, scene.handler.raw entry.2)

/-- The key under which a property is given. -/
def resolvedKey (chain : List ClassEntry) (key : String) : String :=
  ((nearestProperty? chain key).map Property.key).getD key

theorem Scene.resolve_key {scene : Scene} {chain : List ClassEntry} {entry : String × String}
    {result : String × Value} (h : scene.resolve chain entry = .ok result) :
    result.1 = resolvedKey chain entry.1 := by
  unfold resolve at h
  unfold resolvedKey
  cases nearest : nearestProperty? chain entry.1 with
  | none =>
    rw [nearest] at h
    cases h
    rfl
  | some p =>
    rw [nearest] at h
    obtain ⟨value, -, rfl⟩ := ok_of_map h
    rfl

theorem keys_of_resolved {scene : Scene} {chain : List ClassEntry}
    {entries : List (String × String)} {resolved : List (String × Value)}
    (h : entries.map (scene.resolve chain) = resolved.map .ok) :
    keys resolved = (keys entries).map (resolvedKey chain) := by
  induction entries generalizing resolved with
  | nil =>
    obtain rfl := List.map_eq_nil_iff.mp h.symm
    rfl
  | cons entry entries ih =>
    cases resolved with
    | nil => cases h
    | cons result resolved =>
      rw [List.map_cons, List.map_cons, List.cons.injEq] at h
      rw [keys, List.map_cons, Scene.resolve_key h.1, keys, List.map_cons, List.map_cons]
      exact congrArg _ (ih h.2)

theorem Scene.resolve_continues {scene : Scene} {b : Bridge} {history : List Entry}
    (h : scene.bridge.Continues history b) :
    ({ scene with bridge := b } : Scene).resolve = scene.resolve := by
  have same : ({ scene with bridge := b } : Scene).read = scene.read := by
    funext returns answer
    rw [read, read, h.decode_eq]
  funext chain entry
  rw [resolve, resolve, same]

namespace Call

section
variable {md : Model} {c : TypeClass} {chain : List ClassEntry}
  (known : ¬ (md.interfaceFor? c).isNone)
  (hp : ∀ key, md.property? c key = nearestProperty? chain key)
include known hp

theorem run_resolveEntry (scene : Scene) (entry : String × String) :
    ∃ b history, Quiet history ∧ scene.bridge.Continues history b ∧
      (resolveEntry md c entry.1 (scene.handler.raw entry.2)).run scene =
        (scene.resolve chain entry, { scene with bridge := b }) := by
  unfold resolveEntry
  dsimp only
  rw [if_neg known, hp]
  unfold Scene.resolve
  cases nearestProperty? chain entry.1 with
  | none =>
    exact ⟨_, _, Quiet.logged .warning _, scene.bridge.continues_log .warning _, rfl⟩
  | some p =>
    refine ⟨_, _, Quiet.nil, Bridge.Continues.refl _, ?_⟩
    simp only [run_bind, run_pure, Handler.raw, Value.reference?, run_decode, Scene.read]
    cases scene.bridge.decode p.valueType _ <;> rfl

theorem run_resolveEntries (scene : Scene) (entries : List (String × String)) :
    ∃ b history, Quiet history ∧ scene.bridge.Continues history b ∧
      (resolveEntries md c (entries.map (Prod.map id scene.handler.raw))).run scene =
        (entries.mapM (scene.resolve chain), { scene with bridge := b }) := by
  induction entries generalizing scene with
  | nil => exact ⟨_, _, Quiet.nil, Bridge.Continues.refl _, rfl⟩
  | cons entry entries ih =>
    obtain ⟨b, history, quiet, continued, ran⟩ := run_resolveEntry known hp scene entry
    rw [List.map_cons, List.mapM_cons]
    unfold resolveEntries
    dsimp only [Prod.map, id]
    rw [run_bind, ran]
    cases scene.resolve chain entry with
    | error e => exact ⟨b, history, quiet, continued, rfl⟩
    | ok result =>
      obtain ⟨b', history', quiet', continued', ran'⟩ := ih { scene with bridge := b }
      rw [Scene.resolve_continues continued] at ran'
      refine ⟨b', _, quiet.append quiet', continued.trans continued', ?_⟩
      dsimp only
      rw [run_bind, ran']
      cases entries.mapM (scene.resolve chain) <;> rfl

end

/-! ## The record -/

section
variable {scene : Scene} {locale answer : String}
  (codecs : scene.bridge.codecList = Codec.builtin locale)
include codecs

theorem read_record (present : isMissing (some answer) = false) :
    scene.read .record answer =
      .ok (.reference { object := some answer, application := scene.handler.application }) := by
  have found : Codec.find? (Codec.builtin locale) .record = some Codec.record := rfl
  rw [Scene.read, Bridge.decode, codecs]
  refine Codec.decodeAs_of_codec found ?_ _
  simp only [Codec.record, Codec.decodeReference, present, Bool.false_eq_true, if_false]

theorem decode_map {entries : List (String × String)}
    (split : Group.splitRecord answer = .ok entries) :
    scene.bridge.decode .map { object := some answer, application := scene.handler.application } =
      .ok (.map ((recordOf entries).map (Prod.map id scene.handler.raw))) := by
  rw [Bridge.decode, codecs]
  exact Codec.decodeAs_map_of_split split _ _

theorem run_propertyRecord_answered (alone : scene.session = none)
    (notRecord : scene.handler.object.reference.isRecord = false)
    (answered : scene.Answers ("return properties" ++ scene.handler.ofClause) answer)
    (present : isMissing (some answer) = false) :
    ∃ b history, propertyRecord.run scene =
        (.ok (some { object := some answer, application := scene.handler.application }),
          { scene with bridge := b }) ∧
      scene.bridge.Continues history b ∧
      scripts history =
        [(scene.fragment ("return properties" ++ scene.handler.ofClause)).wrapped] := by
  obtain ⟨b, history, ran, continued, sent⟩ :=
    run_execute_answered alone answered (rfl : ValueType.record.isVoid = false)
  refine ⟨b, history, ?_, continued, sent⟩
  rw [read_record codecs present] at ran
  unfold propertyRecord
  rw [run_bind_ok (run_handler scene), notRecord, if_neg Bool.false_ne_true, run_bind_ok ran]
  rfl

end

/-- The entries of a record that says of which class its object is. -/
structure Describes (c : ClassEntry) (entries : List (String × String)) : Prop where
  distinct : (keys entries).Nodup
  noChevron : classProperty ∉ keys entries
  named : ∃ text, ("class", text) ∈ entries ∧ c.IsSpelled text

section
variable {scene : Scene} {d : Dictionary} {application : String} {c : ClassEntry}
  {above : List ClassEntry} {entries : List (String × String)}

theorem run_recordClass_described (hb : scene.bridge.applications.Holds d application)
    (hd : d.Unambiguous) (hc : c ∈ d.classes) (lineage : d.Lineage c above)
    (happ : scene.handler.application = some application) (h : Describes c entries)
    (trimmed : ∀ entry ∈ entries, Text.trimmed entry.2 = entry.2) (md : Model) :
    (recordClass md ((recordOf entries).map (Prod.map id scene.handler.raw))).run scene =
      (.ok (d.typeClass application c above), scene) := by
  obtain ⟨text, entry, spelled⟩ := h.named
  have ordered := recordOf_perm h.distinct
  have distinct : (keys (recordOf entries)).Nodup := (ordered.map Prod.fst).nodup_iff.mpr h.distinct
  have noChevron : classProperty ∉ keys (recordOf entries) := fun inside =>
    h.noChevron ((ordered.map Prod.fst).mem_iff.mp inside)
  have code :
      reported? ((recordOf entries).map (Prod.map id scene.handler.raw)) classProperty = none := by
    rw [reported?, lookup_map, lookup_of_notMem noChevron]
    rfl
  have name :
      reported? ((recordOf entries).map (Prod.map id scene.handler.raw)) "class" = some text := by
    rw [reported?, lookup_map, lookup_of_mem distinct (ordered.mem_iff.mpr entry)]
    simp only [Option.map_some, Option.bind_some, Handler.raw, Value.reference?, trimmed _ entry]
  have spells : c.Spells { name := some text, application := some application } :=
    ⟨⟨text, rfl, spelled⟩, fun _ absent => nomatch absent⟩
  unfold recordClass
  rw [run_bind_ok (run_handler scene), code, name, happ]
  exact run_intern_spelled hb hd hc lineage spells rfl

/-- The model of an interface that the handler's application declares is that application's. -/
theorem resolve?_of_declared {r : Registry} {m : Model} {interface : String}
    (got : r.get? application = some m) (built : Model.build d application = .ok m)
    (bound : (d.class? interface).isSome) :
    r.resolve? (some application) interface = some m :=
  Registry.resolve?_own got (by rwa [Model.build_dictionary built])

/-- Without a session, asking for the properties runs one script, and resolves the entries of the
record that is answered in the order of their keys. -/
theorem run_properties_answered {locale answer : String}
    (registered : scene.bridge.applications.Holds d application) (unambiguous : d.Unambiguous)
    (codecs : scene.bridge.codecList = Codec.builtin locale)
    (bound : (d.class? scene.handler.object.interface).isSome)
    (happ : scene.handler.application = some application) (alone : scene.session = none)
    (notRecord : scene.handler.object.reference.isRecord = false)
    (answered : scene.Answers ("return properties" ++ scene.handler.ofClause) answer)
    (split : Group.splitRecord answer = .ok entries) (hc : c ∈ d.classes)
    (lineage : d.Lineage c above) (described : Describes c entries) :
    ∃ b history, properties.run scene =
        (((recordOf entries).mapM (scene.resolve (c :: above))).map recordOf,
          { scene with bridge := b }) ∧
      scene.bridge.Continues history b ∧
      scripts history =
        [(scene.fragment ("return properties" ++ scene.handler.ofClause)).wrapped] := by
  obtain ⟨text, entry, -⟩ := described.named
  have present := Group.isMissing_of_colon (Group.splitRecord_entry split entry).1
  obtain ⟨b, history, ran, continued, sent⟩ :=
    run_propertyRecord_answered codecs alone notRecord answered present
  have held : b.applications.Holds d application := by rwa [continued.applications]
  obtain ⟨m, got, built⟩ := id held
  have spells : c.Spells (d.typeClass application c above).label := unambiguous.spells_label hc
  have known : ¬ (m.interfaceFor? (d.typeClass application c above)).isNone := by
    rw [Model.interfaceFor?_spelled unambiguous hc spells built]
    exact Bool.false_ne_true
  obtain ⟨b', history', quiet, continued', ran'⟩ := run_resolveEntries known
    (Model.property?_spelled unambiguous built hc lineage spells) { scene with bridge := b }
    (recordOf entries)
  rw [Scene.resolve_continues continued] at ran'
  have named := @run_recordClass_described { scene with bridge := b } d application c above entries
    held unambiguous hc lineage happ described
    (fun entry he => (Group.splitRecord_entry split he).2) m
  refine ⟨b', history ++ history', ?_, continued.trans continued', ?_⟩
  · have decoded :
        (decode .map { object := some answer, application := scene.handler.application }).run
            { scene with bridge := b } =
          (.ok (.map ((recordOf entries).map (Prod.map id scene.handler.raw))),
            { scene with bridge := b }) := by
      rw [run_decode, continued.decode_eq, decode_map codecs split]
    -- Everything before the entries are resolved succeeds: what can fail is one of the entries.
    unfold properties
    rw [run_bind_ok ran]
    dsimp only
    rw [run_bind_ok decoded, run_bind_ok (run_handler _), run_bind_ok (run_bridge _), happ,
      resolve?_of_declared got built bound]
    dsimp only [Value.entries?, Option.getD_some]
    rw [run_bind_ok named, run_bind, ran']
    cases (recordOf entries).mapM (scene.resolve (c :: above)) <;> rfl
  · rw [scripts_append, sent, quiet.scripts_eq, List.append_nil]

end
end Call

/-- **The properties account for every entry of the record.** An application that is registered with
an unambiguous dictionary answers with a record of distinct keys that names a declared class, and
the keys of the properties differ. Then one script is run; and either the properties are the entries
of the record, each one resolved in the lineage of that class, or the first entry in the order of
the keys that cannot be decoded is the error. -/
theorem properties_account {scene : Scene} {d : Dictionary} {application locale answer : String}
    {c : ClassEntry} {above : List ClassEntry} {entries : List (String × String)}
    (registered : scene.bridge.applications.Holds d application) (unambiguous : d.Unambiguous)
    (codecs : scene.bridge.codecList = Codec.builtin locale)
    (bound : (d.class? scene.handler.object.interface).isSome)
    (happ : scene.handler.application = some application) (alone : scene.session = none)
    (notRecord : scene.handler.object.reference.isRecord = false)
    (answered : scene.Answers ("return properties" ++ scene.handler.ofClause) answer)
    (split : Group.splitRecord answer = .ok entries) (hc : c ∈ d.classes)
    (lineage : d.Lineage c above) (described : Call.Describes c entries)
    (differ : ((keys entries).map (resolvedKey (c :: above))).Nodup) :
    scripts (scene.bridge.since (Call.properties.run scene).2.bridge) =
        [(scene.fragment ("return properties" ++ scene.handler.ofClause)).wrapped] ∧
      ∃ ordered, ordered.Perm entries ∧ Sorted ordered ∧
        ((∃ record resolved, (Call.properties.run scene).1 = .ok record ∧ Sorted record ∧
            record.Perm resolved ∧ ordered.map (scene.resolve (c :: above)) = resolved.map .ok) ∨
          ∃ before entry after e, ordered = before ++ entry :: after ∧
            (∀ known ∈ before, ∃ result, scene.resolve (c :: above) known = .ok result) ∧
            scene.resolve (c :: above) entry = .error e ∧
            (Call.properties.run scene).1 = .error e) := by
  obtain ⟨b, history, ran, continued, sent⟩ := Call.run_properties_answered registered unambiguous
    codecs bound happ alone notRecord answered split hc lineage described
  have ordered := recordOf_perm described.distinct
  rw [ran]
  refine ⟨by rw [continued.since_eq, sent], recordOf entries, ordered, sorted_recordOf entries, ?_⟩
  obtain ⟨resolved, all, each⟩ | ⟨before, entry, after, e, cut, passed, failed, stopped⟩ :=
    mapM_outcome (scene.resolve (c :: above)) (recordOf entries)
  · refine .inl ⟨recordOf resolved, resolved, by rw [all]; rfl, sorted_recordOf resolved, ?_, each⟩
    have sameKeys : keys resolved = (keys (recordOf entries)).map (resolvedKey (c :: above)) :=
      keys_of_resolved each
    refine recordOf_perm ?_
    rw [sameKeys]
    exact ((ordered.map Prod.fst).map _).nodup_iff.mpr differ
  · exact .inr ⟨before, entry, after, e, cut, passed, failed, by rw [stopped]; rfl⟩

namespace Sizes

/-- An application in which folders have a property of their own and an inherited one. -/
def dictionary : Dictionary where
  interface := "Finder"
  classes := [
    { interface := "Finder", name := some "application", code := some "capp" },
    { interface := "Folder", name := some "folder", code := some "cfol", superclass := some "Item",
      methods := [
        { name := "is_open", kind := .property, scriptName := some "open", code := some "pOpn",
          returns := .boolean }] },
    { interface := "Item", name := some "item", code := some "cobj",
      methods := [
        { name := "get_size", kind := .property, scriptName := some "size", code := some "ptsz",
          returns := .integer }] }]

def finder : String := "application \"Finder\""

/-- What the application answers: a property by its chevron, one by its name, and an unknown one. -/
def answer : String := "\x7bclass:folder, «property ptsz»:12, open:true, label:7\x7d"

def entries : List (String × String) :=
  [("class", "folder"), ("«property ptsz»", "12"), ("open", "true"), ("label", "7")]

def scene : Scene where
  bridge := ((Bridge.new (Config.default none) (.rehearsal [.answers answer])).register
    dictionary "Finder").2
  session := none
  handler := { object := { interface := "Item", reference := ⟨some "item 1", some finder⟩ },
               reduces := true }

/-- The folder class and the class above it. -/
def chain : List ClassEntry := [dictionary.classes[1], dictionary.classes[2]]

theorem unambiguous : dictionary.Unambiguous where
  interfaces := by decide
  names := by decide
  codes := by decide
  complete := by decide
  apart := by decide

theorem described : Call.Describes dictionary.classes[1] entries where
  distinct := by decide
  noChevron := by decide
  named := ⟨"folder", by decide, .inl rfl⟩

/-- What the properties of the folder are: two values and two references as they were answered. -/
def outcome : List (String × Value) :=
  [("class", scene.handler.raw "folder"), ("size", .integer 12), ("open", .boolean true),
    ("label", scene.handler.raw "7")]

theorem properties_folder :
    ∃ record, (Call.properties.run scene).1 = .ok record ∧ record.Perm outcome := by
  have lineage : dictionary.Lineage dictionary.classes[1] [dictionary.classes[2]] :=
    .step ⟨"Item", rfl, rfl⟩ (.top rfl)
  have registered : scene.bridge.applications.Holds dictionary finder :=
    Registry.holds_of_register (r := {}) rfl rfl
  have answered : scene.Answers ("return properties" ++ scene.handler.ofClause) answer := by rfl
  have split : Group.splitRecord answer = .ok entries := by rfl
  have names : (keys entries).map (resolvedKey chain) = ["class", "size", "open", "label"] := rfl
  have decoded : entries.map (scene.resolve chain) = outcome.map .ok := by rfl
  obtain ⟨-, ordered, perm, -, ⟨record, resolved, ran, -, same, each⟩ |
      ⟨before, entry, after, e, rfl, -, failed, -⟩⟩ :=
    properties_account registered unambiguous rfl rfl rfl rfl rfl answered split (by decide) lineage
      described (names ▸ by decide)
  · refine ⟨record, ran, same.trans ?_⟩
    have injective : Function.Injective (@Except.ok ScriptError (String × Value)) :=
      fun _ _ => Except.ok.inj
    rw [← List.map_perm_map_iff injective, ← each, ← decoded]
    exact perm.map _
  · have inside : entry ∈ entries := perm.mem_iff.mp (List.mem_append_right _ List.mem_cons_self)
    have known := List.mem_map_of_mem (f := scene.resolve chain) inside
    rw [decoded] at known
    obtain ⟨result, -, passed⟩ := List.mem_map.mp known
    cases passed.trans failed

end Sizes

end ScriptBridge
