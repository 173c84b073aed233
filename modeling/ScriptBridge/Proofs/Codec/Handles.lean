import ScriptBridge.Proofs.Codec.Stable
import ScriptBridge.Proofs.Value.Leaves
import ScriptBridge.Proofs.Value.Records
/-!
Handles stay in their application.

A handle is a value that later calls are sent through or compared with: a reference, an object of an
interface, or a class. What is decoded comes from an object half that is cut into ever smaller
pieces, and each piece is a reference of its own. A codec that gives its handles the application of
the reference it reads (`Keeps`) does so for every piece, and all built-in codecs do
(`builtin_keeps`). So the handles in an answer belong to the application that answered
(`decodeAs_within`).
-/
namespace ScriptBridge

/-- Whether a leaf is a handle of an application, a class with all its ancestors, or no handle. -/
def Value.BelongsTo (application : Option String) : Value → Prop
  | .reference r => r.application = application
  | .object o => o.reference.application = application
  | .typeClass c => ∀ label ∈ c.chain, label.application = application
  | _ => True

/-- Whether all handles in a value are those of one application. -/
def Value.Within (application : Option String) (v : Value) : Prop :=
  ∀ leaf ∈ v.leaves, leaf.BelongsTo application

namespace Value.Within
variable {application : Option String}

theorem leaf {v : Value} (alone : v.leaves = [v]) (h : v.BelongsTo application) :
    v.Within application := by
  rw [Within, alone]
  exact List.forall_mem_singleton.mpr h

theorem null : Within application null := leaf rfl trivial

theorem list {items : List Value} (h : ∀ item ∈ items, item.Within application) :
    (Value.list items).Within application := by
  intro leaf inside
  obtain ⟨item, known, below⟩ := mem_leaves_list.mp inside
  exact h item known leaf below

theorem map {entries : List (String × Value)} (h : ∀ entry ∈ entries, entry.2.Within application) :
    (Value.map entries).Within application := by
  intro leaf inside
  obtain ⟨entry, known, below⟩ := mem_leaves_map.mp inside
  exact h entry known leaf below

end Value.Within

namespace Codec

/-! ## Codecs -/

/-- Whether the handles that a codec reads are those of the application that it reads from. -/
def Keeps (codec : Codec) : Prop :=
  ∀ reference value, codec.decode reference = .ok value → value.Within reference.application

namespace Keeps

theorem text : text.Keeps := by
  intro reference value h
  simp only [Codec.text] at h
  split at h <;> cases h <;> exact .leaf rfl trivial

theorem number (target : ValueType) (names : List (String × String)) {α : Type}
    {read : List Char → Except Number.Fault α} {wrap : α → Value}
    (plain : ∀ a application, (wrap a).Within application) :
    (number target names fun s => (read s).map wrap).Keeps := by
  intro reference value h
  simp only [Codec.number] at h
  obtain rfl | ⟨s, found⟩ := decodeNumber_ok h
  · exact .null
  · obtain ⟨a, -, rfl⟩ := ok_of_map found
    exact plain a _

theorem boolean : boolean.Keeps := by
  intro reference value h
  obtain rfl | ⟨b, rfl⟩ := boolean_ok h
  · exact .null
  · exact .leaf rfl trivial

theorem date (locale : Calendar.Locale) : (date locale).Keeps := by
  intro reference value h
  simp only [Codec.date] at h
  split at h
  · cases h
    exact .null
  · split at h <;> cases h
    exact .leaf rfl trivial

theorem tuple {codec : Codec} {kind : TupleKind} {count : Nat} {build : List Int → Option Value}
    {α : Type} {wrap : α → Value} (hd : codec.decode = decodeTuple kind count build)
    (built : ∀ {numbers value}, build numbers = some value → ∃ a, value = wrap a)
    (plain : ∀ a application, (wrap a).Within application) : codec.Keeps := by
  intro reference value h
  rw [hd] at h
  obtain ⟨-, rfl⟩ | ⟨-, numbers, -, made⟩ := decodeTuple_eq_ok_iff.mp h
  · exact .null
  · obtain ⟨a, rfl⟩ := built made
    exact plain a _

theorem binary (target : ValueType) (names : List (String × String)) {wrap : Data → Value}
    (plain : ∀ d application, (wrap d).Within application) :
    (binary target names wrap).Keeps := by
  intro reference value h
  obtain rfl | ⟨d, -, rfl⟩ := binary_ok h
  · exact .null
  · exact plain d _

/-- A codec that reads whatever is not missing in one way. -/
theorem present {codec : Codec} (read : Reference → Value)
    (hd : ∀ reference, codec.decode reference =
      if isMissing reference.object then .ok .null else .ok (read reference))
    (h : ∀ reference, (read reference).Within reference.application) : codec.Keeps := by
  intro reference value decoded
  rw [hd] at decoded
  obtain rfl | ⟨-, rfl⟩ := present_ok decoded
  · exact .null
  · exact h reference

theorem file : file.Keeps := .present _ (fun _ => rfl) fun _ => .leaf rfl trivial

theorem fileAlias : fileAlias.Keeps := .present _ (fun _ => rfl) fun _ => .leaf rfl trivial

theorem typeClass : typeClass.Keeps :=
  .present _ (fun _ => rfl) fun _ => .leaf rfl (List.forall_mem_singleton.mpr rfl)

theorem reference {codec : Codec} (hd : codec.decode = decodeReference) : codec.Keeps :=
  .present .reference (fun _ => by rw [hd]; rfl) fun _ => .leaf rfl rfl

end Keeps

theorem builtin_keeps (locale : String) : ∀ codec ∈ builtin locale, codec.Keeps := by
  simp only [builtin, List.forall_mem_cons]
  exact ⟨.text, .number _ _ fun _ _ => .leaf rfl trivial, .number _ _ fun _ _ => .leaf rfl trivial,
    .number _ _ fun _ _ => .leaf rfl trivial, .number _ _ fun _ _ => .leaf rfl trivial,
    .number _ _ fun _ _ => .leaf rfl trivial, .boolean, .date _, .fileAlias,
    .binary _ _ fun _ _ => .leaf rfl trivial, .binary _ _ fun _ _ => .leaf rfl trivial,
    .binary _ _ fun _ _ => .leaf rfl trivial, .file,
    .tuple rfl pointOf?_ok fun _ _ => .leaf rfl trivial,
    .tuple rfl rectangleOf?_ok fun _ _ => .leaf rfl trivial,
    .tuple rfl colorOf?_ok fun _ _ => .leaf rfl trivial, .typeClass, .reference rfl,
    .reference rfl, by simp⟩

/-! ## The chain of codecs -/

theorem decodeConstant_ok {applications : Registry} {enumeration : String}
    {reference : Reference} {value : Value}
    (h : decodeConstant applications enumeration reference = .ok value) :
    value = .null ∨ ∃ c, value = .constant c := by
  simp only [decodeConstant] at h
  split at h
  · exact .inl (Except.ok.inj h).symm
  · split at h
    · cases h
    · split at h
      · exact .inr ⟨_, (Except.ok.inj h).symm⟩
      · cases h

theorem decodeObject_ok {applications : Registry} {interface : String} {reference : Reference}
    {value : Value} (h : decodeObject applications interface reference = .ok value) :
    value = .null ∨ value = .object { interface, reference } := by
  simp only [decodeObject] at h
  split at h
  · exact .inl (Except.ok.inj h).symm
  · split at h
    · exact .inr (Except.ok.inj h).symm
    · cases h

/-- What can come of a reference where no codec is there for the type. -/
inductive Uncoded (codecs : List Codec) (applications : Registry) (reference : Reference) :
    ValueType → Value → Prop
  | null {target : ValueType} : Uncoded codecs applications reference target .null
  | list {element : ValueType} {segments : List String} {items : List Value}
      (ran : segments.mapM (fun segment =>
        decodeAs codecs applications element (reference.sibling segment)) = .ok items) :
      Uncoded codecs applications reference (.list element) (.list items)
  | map (entries : List (String × String)) :
      Uncoded codecs applications reference .map (.map (recordOf
        (entries.map (Prod.map id fun text => .reference (reference.sibling text)))))
  | constant {target : ValueType} (c : EnumConstant) :
      Uncoded codecs applications reference target (.constant c)
  | object (interface : String) :
      Uncoded codecs applications reference (.object interface) (.object { interface, reference })

theorem uncoded_of_decodeAs {codecs : List Codec} {applications : Registry} {target : ValueType}
    {reference : Reference} {value : Value} (uncoded : find? codecs target = none)
    (h : decodeAs codecs applications target reference = .ok value) :
    Uncoded codecs applications reference target value := by
  cases target with
  | list element =>
    rw [decodeAs, uncoded] at h
    dsimp only at h
    split at h
    · cases h
      exact .null
    · split at h
      · cases h
      · obtain ⟨items, ran, rfl⟩ := ok_of_map h
        exact .list ran
  | map =>
    rw [decodeAs, uncoded] at h
    dsimp only [decodeMap] at h
    split at h
    · cases h
      exact .map []
    · split at h <;> cases h
      exact .map _
  | enumeration name =>
    rw [decodeAs, uncoded] at h
    dsimp only at h
    split at h
    · cases h
      exact .null
    · obtain rfl | ⟨c, rfl⟩ := decodeConstant_ok h
      · exact .null
      · exact .constant c
  | object interface =>
    rw [decodeAs_object applications reference uncoded] at h
    obtain rfl | rfl := decodeObject_ok h
    · exact .null
    · exact .object interface
  | void =>
    rw [decodeAs, uncoded] at h
    cases h
    exact .null
  | _ =>
    unfold decodeAs at h
    rw [uncoded] at h
    dsimp only at h
    split at h <;> cases h
    exact .null

/-- Handles belong to the application of the reference that they are read from, if they do for each
codec. -/
theorem decodeAs_within_of_keeps {codecs : List Codec} (keeps : ∀ codec ∈ codecs, codec.Keeps)
    {applications : Registry} (target : ValueType) {reference : Reference} {value : Value}
    (h : decodeAs codecs applications target reference = .ok value) :
    value.Within reference.application := by
  cases found : find? codecs target with
  | some codec =>
    exact keeps codec (List.mem_of_find?_eq_some found) reference value (decode_of_decodeAs found h)
  | none =>
    cases uncoded_of_decodeAs found h with
    | null => exact .null
    | @list element segments items ran =>
      refine .list fun item known => ?_
      obtain ⟨segment, -, decoded⟩ := mem_of_mapM ran item known
      -- The segment is a reference of its own, for the same application.
      have within : item.Within (reference.sibling segment).application :=
        decodeAs_within_of_keeps keeps element decoded
      exact within
    | map entries =>
      refine .map ?_
      rw [recordOf_map, List.forall_mem_map]
      exact fun entry _ => .leaf rfl rfl
    | constant c => exact .leaf rfl trivial
    | object interface => exact .leaf rfl rfl
termination_by target

/-- **Decoded handles stay in their application.** Whatever is decoded by the built-in codecs, into
lists and records at any depth, every reference, every object and every class in it carries the
application of the reference that was decoded, or none if that has none. -/
theorem decodeAs_belongsTo {locale : String} {applications : Registry} {target : ValueType}
    {reference : Reference} {value : Value}
    (decoded : decodeAs (builtin locale) applications target reference = .ok value) :
    ∀ leaf ∈ value.leaves, leaf.BelongsTo reference.application :=
  decodeAs_within_of_keeps (builtin_keeps locale) target decoded

namespace Parcels

/-- A list with a record in it. -/
def answered : Reference where
  object := some "\x7b\x7bone:a, two:b\x7d, \x7bthree:c\x7d\x7d"
  application := some "application \"Parcels\""

def value : Value :=
  .list [
    .map [("one", .reference (answered.sibling "a")), ("two", .reference (answered.sibling "b"))],
    .map [("three", .reference (answered.sibling "c"))]]

theorem decodeAs_answered :
    decodeAs (builtin "en_US") {} (.list .map) answered = .ok value ∧
      ∀ leaf ∈ value.leaves, leaf.BelongsTo (some "application \"Parcels\"") := by
  have decoded : decodeAs (builtin "en_US") {} (.list .map) answered = .ok value := by rfl
  exact ⟨decoded, decodeAs_belongsTo decoded⟩

end Parcels

end Codec
end ScriptBridge
