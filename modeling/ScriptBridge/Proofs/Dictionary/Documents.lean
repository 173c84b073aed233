import ScriptBridge.Dictionary.Json
import ScriptBridge.Proofs.Json.Abridged
/-!
Dictionaries survive their JSON form.

A dictionary is written with all its fields, and what is read may leave out those that have a value
anyway: texts that are not there, which are written as null, and lists without items and the type
of a method without a result under the keys where these are the defaults. Types survive by
induction on how deep lists are nested, and each structure survives because its values do: every
field is read as what was written in it, or is missing where it holds its default. The limit on how
deep a document is read is the only condition (`Dictionary.parse?_abridged`).
-/
namespace ScriptBridge

open Json (FieldKept ReadAs Abridged)

/-- Whether a member of a dictionary's document can be spared: it is null, or holds what its key
stands for when it is missing. -/
def Dispensable (key : String) (value : Json) : Prop :=
  value = .null ∨
    (key = "methods" ∨ key = "parameters" ∨ key = "enumerations") ∧ value = .array [] ∨
    key = "returns" ∧ value = .ofText "void"

/-! ## Fields -/

section Fields

variable {key : String} {field : Option Json}

theorem not_dispensable_text (other : key ≠ "returns") (s : String) :
    ¬ Dispensable key (.ofText s) := by
  simp [Dispensable, Json.ofText, other]

theorem nil_of_dispensable {α : Type} {write : α → Json} {values : List α}
    (h : Dispensable key (.array (values.map write))) : values = [] := by
  cases values with
  | nil => rfl
  | cons value values => simp [Dispensable, Json.ofText] at h

theorem text_kept {s : String} (h : FieldKept Dispensable (key, .ofText s) field)
    (other : key ≠ "returns") : Json.required Json.text? field = some s :=
  h.required (not_dispensable_text other s) (Json.readAs_text s)

/-- A text that may be missing is read, and missing only where there is none. -/
theorem option_kept {s : Option String} (h : FieldKept Dispensable (key, .ofOption s) field)
    (other : key ≠ "returns") : Json.defaulted none Json.option? field = some s := by
  refine h.defaulted (fun spared => ?_) (Json.readAs_option s)
  cases s with
  | none => rfl
  | some s => exact absurd spared (not_dispensable_text other s)

end Fields

/-! ## Types -/

theorem abridged_single {key : String} {value j : Json} (needed : ¬ Dispensable key value)
    (h : Abridged Dispensable (.ofMembers [(key, value)]) j) :
    ∃ value', j = .object [(some key, value')] ∧ Abridged Dispensable value value' := by
  obtain ⟨members', rfl, related⟩ := h.of_object
  cases related with
  | keep related others => cases others; exact ⟨_, rfl, related⟩
  | leave spared _ => exact absurd spared needed

namespace ValueType

theorem toJson_ne_null (t : ValueType) : t.toJson ≠ .null := by
  cases t <;> nofun

theorem readAs_of_name {t : ValueType} {name : String} (written : t.toJson = .ofText name)
    (known : ∀ room, ofJson? room (.ofText name) = some t) (room : Nat) :
    ReadAs Dispensable (ofJson? room) t.toJson t := by
  intro j h
  rw [written] at h
  rw [h.of_ofText, known]

theorem readAs_of_content {t : ValueType} {key : String} {content : Json}
    (written : t.toJson = .ofMembers [(key, content)]) (needed : ¬ Dispensable key content)
    (known : ∀ inside content', content.depth ≤ inside → Abridged Dispensable content content' →
      ofJson? (inside + 1) (.object [(some key, content')]) = some t) {room : Nat}
    (shallow : t.toJson.depth ≤ room) : ReadAs Dispensable (ofJson? room) t.toJson t := by
  intro j h
  rw [written] at h shallow
  obtain ⟨content', rfl, related⟩ := abridged_single needed h
  obtain ⟨inside, rfl, fits⟩ := Json.room_of_members shallow
  exact known inside content' (fits _ List.mem_cons_self) related

theorem readAs_of_text {t : ValueType} {key name : String}
    (written : t.toJson = .ofMembers [(key, .ofText name)]) (other : key ≠ "returns")
    (known : ∀ inside, ofJson? (inside + 1) (.object [(some key, .ofText name)]) = some t)
    {room : Nat} (shallow : t.toJson.depth ≤ room) :
    ReadAs Dispensable (ofJson? room) t.toJson t := by
  refine readAs_of_content written (not_dispensable_text other name) ?_ shallow
  intro inside content' _ related
  rw [related.of_ofText, known]

theorem readAs (t : ValueType) {room : Nat} (shallow : t.toJson.depth ≤ room) :
    ReadAs Dispensable (ofJson? room) t.toJson t := by
  induction t generalizing room with
  | list element ih =>
    have needed : ¬ Dispensable "list" element.toJson := by
      simp [Dispensable, toJson_ne_null]
    refine readAs_of_content rfl needed (fun inside content' deep related => ?_) shallow
    have unknown : plainNames.lookup "list" = none := by decide
    simp [ofJson?, unknown, ih deep content' related]
  | enumeration name =>
    exact readAs_of_text rfl (by decide) (fun _ => rfl) shallow
  | object name =>
    exact readAs_of_text rfl (by decide) (fun _ => rfl) shallow
  | named name =>
    exact readAs_of_text rfl (by decide) (fun _ => rfl) shallow
  | _ => exact readAs_of_name rfl (fun room => by cases room <;> rfl) room

end ValueType

/-! ## Methods -/

theorem MethodKind.readAs (k : MethodKind) (room : Nat) :
    ReadAs Dispensable (ofJson? room) (.ofText k.name) k := by
  intro j h
  rw [h.of_ofText]
  cases k <;> rfl

theorem Parameter.readAs (p : Parameter) {room : Nat} (shallow : p.toJson.depth ≤ room) :
    ReadAs Dispensable (ofJson? room) p.toJson p := by
  intro j h
  obtain ⟨inside, fields, read, kept, fits⟩ :=
    Json.fields?_abridged ["keyword", "value_type"] rfl (by decide) shallow h
  match fields, kept with
  | [_, _], .cons keyword (.cons valueType .nil) =>
    have needed : ¬ Dispensable "value_type" p.valueType.toJson := by
      simp [Dispensable, ValueType.toJson_ne_null]
    have typeFits : p.valueType.toJson.depth ≤ inside := fits ("value_type", _) (by simp)
    have valueType := valueType.required needed (p.valueType.readAs typeFits)
    simp [Parameter.ofJson?, read, option_kept keyword, valueType]

theorem void_of_dispensable {t : ValueType} (h : Dispensable "returns" t.toJson) : t = .void := by
  cases t <;> simp [Dispensable, ValueType.toJson, Json.ofText, Json.ofMembers] at h ⊢

theorem Method.readAs (m : Method) {room : Nat} (shallow : m.toJson.depth ≤ room) :
    ReadAs Dispensable (ofJson? room) m.toJson m := by
  intro j h
  obtain ⟨inside, fields, read, kept, fits⟩ := Json.fields?_abridged
    ["name", "kind", "script_name", "code", "script_type", "parameters", "returns"] rfl
    (by decide) shallow h
  match fields, kept with
  | [_, _, _, _, _, _, _], .cons name (.cons kind (.cons scriptName (.cons code (.cons scriptType
      (.cons parameters (.cons returns .nil)))))) =>
    have kind := kind.required (not_dispensable_text (by decide) _) (m.kind.readAs inside)
    have parameters := parameters.defaulted nil_of_dispensable
      (Json.readAs_list (fits ("parameters", _) (by simp)) fun _ p _ fits => p.readAs fits)
    have returns := returns.defaulted void_of_dispensable
      (m.returns.readAs (fits ("returns", _) (by simp)))
    simp [Method.ofJson?, read, text_kept name, kind, option_kept scriptName, option_kept code,
      option_kept scriptType, parameters, returns]

/-! ## Classes and enumerations -/

theorem ClassEntry.readAs (c : ClassEntry) {room : Nat} (shallow : c.toJson.depth ≤ room) :
    ReadAs Dispensable (ofJson? room) c.toJson c := by
  intro j h
  obtain ⟨inside, fields, read, kept, fits⟩ := Json.fields?_abridged
    ["interface", "name", "code", "plural", "superclass", "methods"] rfl (by decide) shallow h
  match fields, kept with
  | [_, _, _, _, _, _], .cons interface (.cons name (.cons code (.cons plural (.cons superclass
      (.cons methods .nil))))) =>
    have methods := methods.defaulted nil_of_dispensable
      (Json.readAs_list (fits ("methods", _) (by simp)) fun _ m _ fits => m.readAs fits)
    simp [ClassEntry.ofJson?, read, text_kept interface, option_kept name, option_kept code,
      option_kept plural, option_kept superclass, methods]

theorem ConstantEntry.readAs (c : ConstantEntry) {room : Nat} (shallow : c.toJson.depth ≤ room) :
    ReadAs Dispensable (ofJson? room) c.toJson c := by
  intro j h
  obtain ⟨inside, fields, read, kept, -⟩ := Json.fields?_abridged
    ["name", "script_name", "code", "description"] rfl (by decide) shallow h
  match fields, kept with
  | [_, _, _, _], .cons name (.cons scriptName (.cons code (.cons description .nil))) =>
    simp [ConstantEntry.ofJson?, read, text_kept name, text_kept scriptName, option_kept code,
      option_kept description]

theorem Enumeration.readAs (e : Enumeration) {room : Nat} (shallow : e.toJson.depth ≤ room) :
    ReadAs Dispensable (ofJson? room) e.toJson e := by
  intro j h
  obtain ⟨inside, fields, read, kept, fits⟩ :=
    Json.fields?_abridged ["name", "constants"] rfl (by decide) shallow h
  match fields, kept with
  | [_, _], .cons name (.cons constants .nil) =>
    have needed : ¬ Dispensable "constants" (.array (e.constants.map ConstantEntry.toJson)) := by
      simp [Dispensable]
    have constants := constants.required needed
      (Json.readAs_list (fits ("constants", _) (by simp)) fun _ c _ fits => c.readAs fits)
    simp [Enumeration.ofJson?, read, text_kept name, constants]

/-! ## Documents -/

section Sound

theorem sound_text (s : String) : (Json.ofText s).Sound := .string (some s)

theorem sound_option (s : Option String) : (Json.ofOption s).Sound := by
  cases s with
  | none => exact .null
  | some s => exact .string (some s)

theorem sound_ofMembers {members : List (String × Json)} (h : ∀ member ∈ members, member.2.Sound) :
    (Json.ofMembers members).Sound :=
  .object (List.forall_mem_map.mpr h)

theorem sound_items {α : Type} {write : α → Json} (h : ∀ value, (write value).Sound)
    (values : List α) : (Json.array (values.map write)).Sound :=
  .array (List.forall_mem_map.mpr fun value _ => h value)

theorem ValueType.sound (t : ValueType) : t.toJson.Sound := by
  induction t with
  | list element ih => exact sound_ofMembers (by simpa using ih)
  | enumeration name | object name | named name =>
    exact sound_ofMembers (by simpa using sound_text name)
  | _ => exact sound_text _

theorem Parameter.sound (p : Parameter) : p.toJson.Sound :=
  sound_ofMembers (by simp [sound_option, p.valueType.sound])

theorem Method.sound (m : Method) : m.toJson.Sound :=
  sound_ofMembers (by
    simp [sound_text, sound_option, m.returns.sound, sound_items Parameter.sound])

theorem ClassEntry.sound (c : ClassEntry) : c.toJson.Sound :=
  sound_ofMembers (by simp [sound_text, sound_option, sound_items Method.sound])

theorem ConstantEntry.sound (c : ConstantEntry) : c.toJson.Sound :=
  sound_ofMembers (by simp [sound_text, sound_option])

theorem Enumeration.sound (e : Enumeration) : e.toJson.Sound :=
  sound_ofMembers (by simp [sound_text, sound_items ConstantEntry.sound])

theorem Dictionary.sound (d : Dictionary) : d.toJson.Sound :=
  sound_ofMembers (by
    simp [sound_text, sound_items ClassEntry.sound, sound_items Enumeration.sound])

end Sound

/-! ## Dictionaries -/

namespace Dictionary

theorem readAs (d : Dictionary) {room : Nat} (shallow : d.toJson.depth ≤ room) :
    ReadAs Dispensable (ofJson? room) d.toJson d := by
  intro j h
  obtain ⟨inside, fields, read, kept, fits⟩ :=
    Json.fields?_abridged ["interface", "classes", "enumerations"] rfl (by decide) shallow h
  match fields, kept with
  | [_, _, _], .cons interface (.cons classes (.cons enumerations .nil)) =>
    have needed : ¬ Dispensable "classes" (.array (d.classes.map ClassEntry.toJson)) := by
      simp [Dispensable]
    have classes := classes.required needed
      (Json.readAs_list (fits ("classes", _) (by simp)) fun _ c _ fits => c.readAs fits)
    have enumerations := enumerations.defaulted nil_of_dispensable
      (Json.readAs_list (fits ("enumerations", _) (by simp)) fun _ e _ fits => e.readAs fits)
    simp [Dictionary.ofJson?, read, text_kept interface, classes, enumerations]

/-- A dictionary is read back from the text that is written for it, and from the text of every
document in which some of the members that can be spared are left out. -/
theorem parse?_abridged {d : Dictionary} (shallow : d.toJson.depth ≤ Json.depthLimit) :
    parse? d.render = some d ∧
      ∀ j, Abridged Dispensable d.toJson j → parse? j.render = some d := by
  have survives : ∀ j, Abridged Dispensable d.toJson j → parse? j.render = some d := by
    intro j h
    rw [parse?, Json.parse?_render (d.sound.abridged h), Option.bind_some]
    exact d.readAs shallow j h
  exact ⟨survives d.toJson (.refl _), survives⟩

/-- A dictionary with a quote, a control character and a list of lists. -/
def drafts : Dictionary where
  interface := "Drafts"
  classes := [{
    interface := "\"Draft\"\x01"
    methods := [{ name := "lines", kind := .property, returns := .list (.list .text) }] }]

/-- The document of `drafts` without all that can be spared. -/
def shortDrafts : Json :=
  .ofMembers [("interface", .ofText "Drafts"),
    ("classes", .array [.ofMembers [("interface", .ofText "\"Draft\"\x01"),
      ("methods", .array [.ofMembers [("name", .ofText "lines"), ("kind", .ofText "property"),
        ("returns", .ofMembers [("list", .ofMembers [("list", .ofText "text")])])]])]])]

theorem abridged_drafts : Abridged Dispensable drafts.toJson shortDrafts := by
  have null (key : String) : Dispensable key .null := .inl rfl
  have parameters : Dispensable "parameters" (.array []) := by simp [Dispensable]
  have enumerations : Dispensable "enumerations" (.array []) := by simp [Dispensable]
  refine .object (.keep (.refl _) (.keep (.array (.cons ?_ .nil)) (.leave enumerations .nil)))
  refine .object (.keep (.refl _) (.leave (null _) (.leave (null _) (.leave (null _)
    (.leave (null _) (.keep (.array (.cons ?_ .nil)) .nil))))))
  exact .object (.keep (.refl _) (.keep (.refl _) (.leave (null _) (.leave (null _)
    (.leave (null _) (.leave parameters (.keep (.refl _) .nil)))))))

theorem drafts_survive :
    drafts.toJson.depth ≤ Json.depthLimit ∧ parse? drafts.render = some drafts ∧
      shortDrafts.render = "\x7b\"interface\":\"Drafts\",\"classes\":[" ++
        "\x7b\"interface\":\"\\\"Draft\\\"\\u0001\",\"methods\":[" ++
        "\x7b\"name\":\"lines\",\"kind\":\"property\",\"returns\":" ++
        "\x7b\"list\":\x7b\"list\":\"text\"\x7d\x7d\x7d]\x7d]\x7d" ∧
      parse? shortDrafts.render = some drafts := by
  have shallow : drafts.toJson.depth ≤ Json.depthLimit := by decide
  obtain ⟨whole, short⟩ := parse?_abridged shallow
  exact ⟨shallow, whole, by decide +kernel, short shortDrafts abridged_drafts⟩

end Dictionary

end ScriptBridge
