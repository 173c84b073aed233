import ScriptBridge.Proofs.Codec.Leaves
/-!
Payloads whose kind is any four characters.

A data literal holds the kind and the digits of a payload with nothing between them. What is written
is a kind of any length, but what is read as the kind is what takes four bytes, and the rest of the
kind is taken for digits (`readData?_dataLiteral_iff`). So a payload with a kind of four characters
comes back exactly if these are ASCII characters. Any other is refused, or read as another payload
where what is left of its kind consists of pairs of digits (`decode_payload_iff`).
-/
namespace ScriptBridge.Codec

open Text

/-- The types of binary data, with the values that each has. -/
inductive Flavour : ValueType → (Data → Value) → Prop
  | data : Flavour .data .data
  | picture : Flavour .picture .picture
  | typedData : Flavour .typedData .typedData

/-! ## Digits before the bytes -/

theorem bytes?_cons_upper (c : Char) (bytes : List UInt8) :
    Hex.bytes? (c :: Hex.upper bytes) = none := by
  induction bytes generalizing c with
  | nil => rfl
  | cons b bytes ih =>
    have digits : Hex.upper (b :: bytes) =
        Hex.upperDigit (b.toNat / 16) :: Hex.upperDigit (b.toNat % 16) :: Hex.upper bytes := rfl
    rw [digits, Hex.bytes?, ih]
    cases Hex.pair? c (Hex.upperDigit (b.toNat / 16)) <;> rfl

theorem bytes?_append_upper (digits : List Char) (bytes : List UInt8) :
    Hex.bytes? (digits ++ Hex.upper bytes) = (Hex.bytes? digits).map (· ++ bytes) := by
  fun_induction Hex.bytes? digits with
  | case1 => exact Hex.bytes?_upper bytes
  | case2 c => exact bytes?_cons_upper c bytes
  | case3 high low rest ih =>
    rw [List.cons_append, List.cons_append, Hex.bytes?, ih]
    cases Hex.pair? high low with
    | none => rfl
    | some b => cases Hex.bytes? rest <;> rfl

/-! ## Bytes and characters -/

theorem length_le_byteLength (s : List Char) : s.length ≤ byteLength s := by
  induction s with
  | nil => exact Nat.le_refl 0
  | cons c s ih =>
    have := c.utf8Size_pos
    rw [byteLength_cons, List.length_cons]
    omega

theorem utf8Size_eq_one_iff_isPlain (c : Char) : c.utf8Size = 1 ↔ Literal.isPlain c = true := by
  rw [Char.utf8Size_eq_one_iff, UInt32.le_iff_toNat_le, Literal.isPlain, decide_eq_true_iff]
  rfl

theorem byteLength_eq_length_iff (s : List Char) :
    byteLength s = s.length ↔ ∀ c ∈ s, Literal.isPlain c = true := by
  induction s with
  | nil => exact iff_of_true rfl (by simp)
  | cons c s ih =>
    have first := c.utf8Size_pos
    have rest := length_le_byteLength s
    rw [List.forall_mem_cons, ← ih, ← utf8Size_eq_one_iff_isPlain, byteLength_cons,
      List.length_cons]
    omega

/-! ## Payloads -/

section
variable {d : Data} (four : d.kind.toList.length = 4)
include four

/-- The first four bytes of a kind are read as the kind, and what is left of it as digits. -/
theorem readData?_dataLiteral_iff {found : Data} :
    readData? (dataLiteral d).toList = some found ↔
      ∃ kind digits front, d.kind.toList = kind ++ digits ∧ byteLength kind = 4 ∧
        Hex.bytes? digits = some front ∧ found = ⟨String.ofList kind, front ++ d.bytes⟩ := by
  have body : between? dataOpening ['»'] (dataLiteral d).toList =
      some (d.kind.toList ++ Hex.upper d.bytes) := by
    rw [toList_dataLiteral]
    exact between?_append _ _ _
  rw [readData?, (dataLiteral_tight d).trim_eq, body, Option.bind_some, Option.bind_eq_some_iff]
  simp only [Prod.exists, firstBytes?_eq_kind_iff, Option.map_eq_some_iff]
  constructor
  · rintro ⟨kind, rest, ⟨whole, bytes⟩, read, digits, rfl⟩
    -- Four bytes are at most four characters, so they are found inside of the kind.
    have short : kind.length ≤ d.kind.toList.length := by
      have := length_le_byteLength kind
      omega
    obtain ⟨tail, cut⟩ := List.prefix_of_prefix_length_le ⟨rest, whole.symm⟩
      (List.prefix_append d.kind.toList (Hex.upper d.bytes)) short
    rw [← cut, List.append_assoc, List.append_cancel_left_eq] at whole
    rw [← whole, bytes?_append_upper, Option.map_eq_some_iff] at digits
    obtain ⟨front, digits, rfl⟩ := digits
    exact ⟨kind, tail, front, cut.symm, bytes, digits, rfl⟩
  · rintro ⟨kind, digits, front, cut, bytes, read, rfl⟩
    refine ⟨kind, digits ++ Hex.upper d.bytes, ⟨?_, bytes⟩, front ++ d.bytes, ?_, rfl⟩
    · rw [cut, List.append_assoc]
    · rw [bytes?_append_upper, read, Option.map_some]

theorem readData?_dataLiteral_self_iff :
    readData? (dataLiteral d).toList = some d ↔ ∀ c ∈ d.kind.toList, Literal.isPlain c = true := by
  rw [readData?_dataLiteral_iff four, ← byteLength_eq_length_iff]
  constructor
  · rintro ⟨kind, digits, front, cut, bytes, -, same⟩
    have whole : d.kind.toList = kind := by
      rw [same, String.toList_ofList]
    rw [whole, bytes, ← whole, four]
  · intro bytes
    refine ⟨d.kind.toList, [], [], by simp, bytes.trans four, rfl, ?_⟩
    rw [String.ofList_toList, List.nil_append]

end

theorem binary_decode_iff {target : ValueType} {wrap : Data → Value}
    {names : List (String × String)} {d : Data} {application : Option String} {value : Value} :
    (binary target names wrap).decode (answer (dataLiteral d) application) = .ok value ↔
      ∃ found, readData? (dataLiteral d).toList = some found ∧ value = wrap found := by
  have filled : isMissing (some (dataLiteral d)) = false := by
    apply isMissing_eq_false (dataLiteral_tight d)
    rw [toList_dataLiteral, show dataOpening = '«' :: dataOpening.tail from by decide]
    simp
  simp only [binary, answer, filled, Bool.false_eq_true, if_false, Reference.objectText,
    Option.getD_some]
  cases readData? (dataLiteral d).toList with
  | none => simp
  | some found => simp [eq_comm]

namespace Flavour

variable {target : ValueType} {wrap : Data → Value} (h : Flavour target wrap)
include h

theorem valueType_eq (d : Data) : (wrap d).valueType = target := by
  cases h <;> rfl

theorem eq_of_eq {d d' : Data} (same : wrap d = wrap d') : d = d' := by
  cases h with
  | data => exact Value.data.inj same
  | picture => exact Value.picture.inj same
  | typedData => exact Value.typedData.inj same

theorem exists_codec (locale : String) :
    ∃ names, find? (builtin locale) target = some (binary target names wrap) := by
  cases h <;> exact ⟨_, rfl⟩

theorem encodeAs_eq (d : Data) (locale : String) (applications : Registry) :
    encodeAs (builtin locale) applications (wrap d) = .ok (dataLiteral d) := by
  obtain ⟨names, found⟩ := h.exists_codec locale
  have listed : target ∈ codecTypes := by cases h <;> decide
  rw [← h.valueType_eq d] at found listed
  rw [encodeAs_of_codec listed found]
  cases h <;> rfl

end Flavour

/-- A payload with a kind of four characters is written, and read from what is written exactly if
these are ASCII. What is read in any case has the first four bytes of the kind as its kind, and the
rest of it, as digits, in front of its bytes. -/
theorem decode_payload_iff {d : Data} (four : d.kind.toList.length = 4) {target : ValueType}
    {wrap : Data → Value} (h : Flavour target wrap) (locale : String) (applications : Registry) :
    ∃ text, encodeAs (builtin locale) applications (wrap d) = .ok text ∧ ∀ application,
      (decodeAs (builtin locale) applications target (answer text application) = .ok (wrap d) ↔
        ∀ c ∈ d.kind.toList, Literal.isPlain c = true) ∧
      ∀ value, decodeAs (builtin locale) applications target (answer text application) =
          .ok value ↔
        ∃ kind digits front, d.kind.toList = kind ++ digits ∧ byteLength kind = 4 ∧
          Hex.bytes? digits = some front ∧
          value = wrap ⟨String.ofList kind, front ++ d.bytes⟩ := by
  obtain ⟨names, found⟩ := h.exists_codec locale
  refine ⟨_, h.encodeAs_eq d locale applications, fun application => ⟨?_, fun value => ?_⟩⟩
  · rw [decodeAs_eq_ok_iff found, binary_decode_iff, ← readData?_dataLiteral_self_iff four]
    constructor
    · rintro ⟨other, read, same⟩
      obtain rfl := h.eq_of_eq same
      exact read
    · intro read
      exact ⟨d, read, rfl⟩
  · rw [decodeAs_eq_ok_iff found, binary_decode_iff]
    simp only [readData?_dataLiteral_iff four]
    constructor
    · rintro ⟨_, ⟨kind, digits, front, cut, bytes, read, rfl⟩, rfl⟩
      exact ⟨kind, digits, front, cut, bytes, read, rfl⟩
    · rintro ⟨kind, digits, front, cut, bytes, read, rfl⟩
      exact ⟨_, ⟨kind, digits, front, cut, bytes, read, rfl⟩, rfl⟩

/-- A kind of ASCII characters, be they spaces, comes back; one of which two characters take four
bytes is read as these two, and the other two as a byte. -/
theorem decode_payload_accents :
    "a  \x7b".toList.length = 4 ∧ "éé0f".toList.length = 4 ∧ Flavour .picture .picture ∧
      (∃ text, encodeAs (builtin "en_US") {} (.picture ⟨"a  \x7b", [7]⟩) = .ok text ∧
        decodeAs (builtin "en_US") {} .picture (answer text none) =
          .ok (.picture ⟨"a  \x7b", [7]⟩)) ∧
      ∃ text, encodeAs (builtin "en_US") {} (.picture ⟨"éé0f", [7]⟩) = .ok text ∧
        decodeAs (builtin "en_US") {} .picture (answer text none) =
          .ok (.picture ⟨"éé", [15, 7]⟩) := by
  have spaced : "a  \x7b".toList.length = 4 := by decide
  have accented : "éé0f".toList.length = 4 := by decide
  obtain ⟨text, written, read⟩ :=
    decode_payload_iff (d := ⟨"a  \x7b", [7]⟩) spaced .picture "en_US" {}
  obtain ⟨other, otherWritten, otherRead⟩ :=
    decode_payload_iff (d := ⟨"éé0f", [7]⟩) accented .picture "en_US" {}
  have plain : ∀ c ∈ "a  \x7b".toList, Literal.isPlain c = true := List.all_eq_true.mp (by decide)
  refine ⟨spaced, accented, .picture, ⟨text, written, ((read none).1).mpr plain⟩, other,
    otherWritten, ((otherRead none).2 _).mpr ?_⟩
  exact ⟨['é', 'é'], ['0', 'f'], [15], by decide, by decide, by decide, rfl⟩

end ScriptBridge.Codec
