import ScriptBridge.Proofs.Codec.Lists
import ScriptBridge.Proofs.Value.Outcomes
/-!
The missing value, read as each type.

The missing value is written as two words. Read as a type that a codec is there for, as a constant
or as an object they are the missing value again, with three exceptions. Text takes the words for a
text. A list takes them for a list without braces, so that its only item is what the words are as an
item. A record takes them for an entry and finds no key in it.

`readMissing` computes what comes of the words, and `decodeAs_missing` says that this is what
decoding gives, at every type and for every application. So the missing value stays missing exactly
at the types that are neither text, nor record, nor list (`decodeAs_missingValue`).
-/
namespace ScriptBridge.Codec

open Text ScriptBridge.Group

/-- What the words for the missing value are read as. -/
def readMissing (application : Option String) : ValueType → Except ScriptError Value
  | .text => .ok (.text missingValue)
  | .map => .error (.format (.record missingValue (.noKey missingValue)))
  | .list element => (readMissing application element).map fun item => .list [item]
  | .named name => .error (.config (.noDecoder (.named name) (answer missingValue application)))
  | _ => .ok .null

/-- Whether a type is that of single values: no text, no record, no list, and no type that someone
else names. -/
def IsSingle : ValueType → Prop
  | .text | .map | .list _ | .named _ => False
  | _ => True

theorem readMissing_eq_null_iff (application : Option String) (target : ValueType) :
    readMissing application target = .ok .null ↔ IsSingle target := by
  cases target with
  | list element =>
    apply iff_of_false _ id
    intro h
    rw [readMissing] at h
    obtain ⟨item, -, e⟩ := ok_of_map h
    cases e
  | text | map | named => exact iff_of_false (by simp [readMissing]) id
  | _ => exact iff_of_true rfl trivial

/-! ## The words -/

theorem isMissingValue_missing : isMissingValue (some missingValue) = true := by decide

theorem isMissing_missing : isMissing (some missingValue) = true := by decide

theorem isBlankObject_missing : isBlankObject (some missingValue) = false := by decide

theorem splitList_missing : splitList missingValue = .ok [missingValue] := rfl

theorem splitRecord_missing :
    splitRecord missingValue = .error (.record missingValue (.noKey missingValue)) := rfl

/-! ## The codecs -/

section
variable (locale : String) (application : Option String)

theorem decode_missing {codec : Codec} (h : codec ∈ builtin locale)
    (other : codec.valueType ≠ .text) :
    codec.decode (answer missingValue application) = .ok .null := by
  have parsed : ∀ codec ∈ [integer, short, long, float, double, boolean,
      date (.ofIdentifier locale), point, rectangle, rgbColor],
      codec.decode (answer missingValue application) = .ok .null := by
    simp [integer, short, long, float, double, number, boolean, date, point, rectangle, rgbColor,
      decodeNumber, decodeTuple, answer, isMissingValue_missing]
  have taken : ∀ codec ∈ [fileAlias, data, picture, typedData, file, typeClass, record, reference],
      codec.decode (answer missingValue application) = .ok .null := by
    simp [fileAlias, data, picture, typedData, binary, file, typeClass, record, reference,
      decodeReference, answer, isMissing_missing]
  have either : codec = text ∨ codec ∈ [integer, short, long, float, double, boolean,
      date (.ofIdentifier locale), point, rectangle, rgbColor] ∨
      codec ∈ [fileAlias, data, picture, typedData, file, typeClass, record, reference] := by
    simp only [builtin, List.mem_cons, List.not_mem_nil, or_false] at h ⊢
    grind
  rcases either with rfl | h | h
  · exact absurd rfl other
  · exact parsed codec h
  · exact taken codec h

end

section
variable (locale : String) (applications : Registry) (application : Option String)

theorem decodeAs_codec_missing {target : ValueType} (other : target ≠ .text)
    (found : ∃ codec, find? (builtin locale) target = some codec) :
    decodeAs (builtin locale) applications target (answer missingValue application) =
      .ok .null := by
  obtain ⟨codec, found⟩ := found
  have listed := List.mem_of_find?_eq_some found
  have valueType : codec.valueType = target := by
    simpa using List.find?_some found
  apply decodeAs_of_codec found
  exact decode_missing locale application listed (valueType ▸ other)

theorem decodeAs_list_missing (element : ValueType) :
    decodeAs (builtin locale) applications (.list element) (answer missingValue application) =
      (decodeAs (builtin locale) applications element (answer missingValue application)).map
        fun item => .list [item] := by
  rw [decodeAs_list splitList_missing, List.mapM_cons]
  cases decodeAs (builtin locale) applications element (answer missingValue application) <;> rfl

theorem decodeAs_missing (target : ValueType) :
    decodeAs (builtin locale) applications target (answer missingValue application) =
      readMissing application target := by
  induction target with
  | text =>
    have found : find? (builtin locale) .text = some text := rfl
    exact decodeAs_of_codec found rfl applications
  | list element ih => rw [decodeAs_list_missing, ih, readMissing]
  | map =>
    rw [decodeAs_map]
    simp only [answer, decodeMap, splitRecord_missing, readMissing]
  | enumeration name =>
    have missing : isMissing (some (trimmed missingValue)) = true := by
      rw [isMissing_trimmed, isMissing_missing]
    rw [decodeAs_enumeration]
    simp only [answer, decodeConstant, Reference.objectText, Option.getD_some, missing, if_true,
      readMissing]
  | object interface =>
    rw [decodeAs_object applications _ (by rfl)]
    simp only [answer, decodeObject, isMissing_missing, if_true, readMissing]
  | named name =>
    rw [decodeAs, show find? (builtin locale) (.named name) = none from rfl]
    · simp only [answer, isBlankObject_missing, Bool.false_eq_true, if_false, readMissing]
    all_goals simp
  | void =>
    rw [decodeAs, show find? (builtin locale) .void = none from rfl]
    rfl
  | _ => exact decodeAs_codec_missing locale applications application (by decide) ⟨_, rfl⟩

/-- The missing value is written as the words for it. What they are read as is known for every type,
and it is the missing value exactly for the types of single values. -/
theorem decodeAs_missingValue (target : ValueType) :
    ∃ text, encodeAs (builtin locale) applications .null = .ok text ∧
      decodeAs (builtin locale) applications target (answer text application) =
        readMissing application target ∧
      (decodeAs (builtin locale) applications target (answer text application) = .ok .null ↔
        IsSingle target) := by
  have read := decodeAs_missing locale applications application target
  refine ⟨missingValue, by rw [encodeAs], read, ?_⟩
  rw [read]
  exact readMissing_eq_null_iff application target

end

end ScriptBridge.Codec
