import ScriptBridge.Proofs.Codec.Lists
import ScriptBridge.Proofs.Value.Outcomes
/-!
What was read is written, and read from that again.

A codec reads many texts as one value: white space, a plus sign, digits in either case and the words
for nothing leave no trace in it. The text that it writes for the value need not be the one that it
read, but is read as the same value (`decodeAs_reencoded`).

For most types it is enough to know what can have been read, a leaf or the missing value, since
those come back from what is written for them; only the payload of a data literal may be stranger
than the leaves of lists, with any four bytes for its kind. Files, classes and references keep the
text that they were read from, files and classes without the white space around it.
-/
namespace ScriptBridge.Codec

open Text Number

/-- The types whose values are read from what is written for them, once they have been read. -/
def stableTypes : List ValueType :=
  [.text, .integer, .short, .long, .boolean, .point, .rgbColor, .data, .picture, .typedData, .file,
    .typeClass, .record, .reference]

/-- A value that is written, and read from what is written. -/
def Returns (codecs : List Codec) (applications : Registry) (target : ValueType)
    (application : Option String) (value : Value) : Prop :=
  ∃ text, encodeAs codecs applications value = .ok text ∧
    decodeAs codecs applications target (answer text application) = .ok value

theorem RoundTrips.returns {codecs : List Codec} {target : ValueType} {value : Value}
    {text : String} (h : RoundTrips codecs target value text) (applications : Registry)
    (application : Option String) : Returns codecs applications target application value :=
  ⟨text, h.encoded applications, h.decoded applications application⟩

theorem Returns.of_codec {codecs : List Codec} {codec : Codec} {applications : Registry}
    {value : Value} {application : Option String} {text : String}
    (hv : value.valueType ∈ codecTypes) (hf : find? codecs value.valueType = some codec)
    (he : codec.encode value = .ok text) (hd : codec.decode (answer text application) = .ok value) :
    Returns codecs applications value.valueType application value :=
  ⟨text, (encodeAs_of_codec hv hf applications).trans he, decodeAs_of_codec hf hd applications⟩

theorem returns_null (locale : String) (applications : Registry) {target : ValueType}
    (h : target ∈ stableTypes) (words : target ≠ .text) (application : Option String) :
    Returns (builtin locale) applications target application .null := by
  refine ⟨missingValue, by rw [encodeAs], ?_⟩
  simp only [stableTypes, List.mem_cons, List.not_mem_nil, or_false] at h
  rcases h with rfl | rfl | rfl | rfl | rfl | rfl | rfl | rfl | rfl | rfl | rfl | rfl | rfl | rfl
  · exact absurd rfl words
  all_goals rfl

/-! ## What can have been read -/

theorem decodeNumber_ok {read : List Char → Except Fault Value} {reference : Reference}
    {value : Value} (h : decodeNumber read reference = .ok value) :
    value = .null ∨ ∃ s, read s = .ok value := by
  unfold decodeNumber at h
  split at h
  · exact .inl (Except.ok.inj h).symm
  · dsimp only at h
    split at h
    · next found => exact .inr ⟨_, found.trans (congrArg _ (Except.ok.inj h))⟩
    · cases h

theorem boolean_ok {reference : Reference} {value : Value}
    (h : boolean.decode reference = .ok value) :
    value = .null ∨ ∃ b, value = .boolean b := by
  simp only [boolean] at h
  split at h
  · exact .inl (Except.ok.inj h).symm
  · split at h
    · cases h
    · exact .inr ⟨_, (Except.ok.inj h).symm⟩

theorem pointOf?_ok {numbers : List Int} {value : Value} (h : pointOf? numbers = some value) :
    ∃ p, value = .point p := by
  unfold pointOf? at h
  split at h
  · split at h
    · exact ⟨_, (Option.some.inj h).symm⟩
    · cases h
  · cases h

theorem rectangleOf?_ok {numbers : List Int} {value : Value}
    (h : rectangleOf? numbers = some value) : ∃ r, value = .rectangle r := by
  unfold rectangleOf? at h
  split at h
  · split at h
    · exact ⟨_, (Option.some.inj h).symm⟩
    · cases h
  · cases h

theorem colorOf?_ok {numbers : List Int} {value : Value} (h : colorOf? numbers = some value) :
    ∃ c, value = .rgbColor c := by
  unfold colorOf? at h
  split at h
  · split at h
    · exact ⟨_, (Option.some.inj h).symm⟩
    · cases h
  · cases h

theorem binary_ok {target : ValueType} {wrap : Data → Value} {names : List (String × String)}
    {reference : Reference} {value : Value}
    (h : (binary target names wrap).decode reference = .ok value) :
    value = .null ∨ ∃ d, byteLength d.kind.toList = 4 ∧ value = wrap d := by
  simp only [binary] at h
  split at h
  · exact .inl (Except.ok.inj h).symm
  · split at h
    · next d found => exact .inr ⟨d, byteLength_of_readData? found, (Except.ok.inj h).symm⟩
    · cases h

theorem present_ok {object : Option String} {value found : Value}
    (h : (if isMissing object then .ok .null else .ok found : Except ScriptError Value) =
      .ok value) :
    value = .null ∨ isMissing object = false ∧ value = found := by
  split at h
  · exact .inl (Except.ok.inj h).symm
  · next filled => exact .inr ⟨Bool.eq_false_of_not_eq_true filled, (Except.ok.inj h).symm⟩

/-! ## Reading it again -/

section
variable {locale : String} {applications : Registry} {application : Option String} {s : String}
  {value : Value}

theorem returns_text (h : text.decode (answer s application) = .ok value) :
    Returns (builtin locale) applications .text application value := by
  rw [← String.ofList_toList (s := s), text_decode] at h
  cases h
  refine ⟨_, encodeAs_text locale applications _, ?_⟩
  refine decodeAs_of_codec (show find? (builtin locale) .text = some text from rfl) ?_ applications
  rw [literal, text_decode, Literal.unquote_quote, String.ofList_toList]

theorem returns_number {α : Type} {target : ValueType} {names : List (String × String)}
    {readAs : List Char → Except Fault α} {wrap : α → Value}
    (null : Returns (builtin locale) applications target application .null)
    (numbers : ∀ n, Returns (builtin locale) applications target application (wrap n))
    (h : (number target names fun t => (readAs t).map wrap).decode (answer s application) =
      .ok value) :
    Returns (builtin locale) applications target application value := by
  simp only [number] at h
  obtain rfl | ⟨t, read⟩ := decodeNumber_ok h
  · exact null
  · obtain ⟨n, -, rfl⟩ := ok_of_map read
    exact numbers n

theorem returns_tuple {target : ValueType} {codec : Codec} {kind : TupleKind} {count : Nat}
    {build : List Int → Option Value} (hd : codec.decode = decodeTuple kind count build)
    (null : Returns (builtin locale) applications target application .null)
    (compounds : ∀ {numbers value}, build numbers = some value →
      Returns (builtin locale) applications target application value)
    (h : codec.decode (answer s application) = .ok value) :
    Returns (builtin locale) applications target application value := by
  rw [hd] at h
  obtain ⟨-, rfl⟩ | ⟨-, numbers, -, built⟩ := decodeTuple_eq_ok_iff.mp h
  · exact null
  · exact compounds built

theorem returns_binary {target : ValueType} {wrap : Data → Value} {names : List (String × String)}
    (null : Returns (builtin locale) applications target application .null)
    (hv : ∀ d, (wrap d).valueType = target) (ht : target ∈ codecTypes)
    (hf : find? (builtin locale) target = some (binary target names wrap))
    (he : ∀ d, (binary target names wrap).encode (wrap d) = .ok (dataLiteral d))
    (h : (binary target names wrap).decode (answer s application) = .ok value) :
    Returns (builtin locale) applications target application value := by
  obtain rfl | ⟨d, four, rfl⟩ := binary_ok h
  · exact null
  · have again : (binary target names wrap).decode (answer (dataLiteral d) application) =
        .ok (wrap d) := binary_decode four application
    rw [← hv d] at hf ht ⊢
    exact .of_codec ht hf (he d) again

/-- A file is written as the specifier that it was read from. -/
theorem returns_file (h : file.decode (answer s application) = .ok value) :
    Returns (builtin locale) applications .file application value := by
  simp only [file, answer, Reference.objectText, Option.getD_some] at h
  obtain rfl | ⟨filled, rfl⟩ := present_ok h
  · exact returns_null locale applications (by decide) (by decide) application
  have again : file.decode (answer (trimmed s) application) =
      .ok (.file (readFile (trimmed s))) := by
    rw [← isMissing_trimmed] at filled
    rw [file_decode filled, trimmed_trimmed]
  exact .of_codec (show ValueType.file ∈ codecTypes by decide)
    (show find? (builtin locale) .file = some file from rfl) rfl again

theorem returns_typeClass (h : typeClass.decode (answer s application) = .ok value) :
    Returns (builtin locale) applications .typeClass application value := by
  simp only [typeClass, answer, Reference.objectText, Option.getD_some] at h
  obtain rfl | ⟨filled, rfl⟩ := present_ok h
  · exact returns_null locale applications (by decide) (by decide) application
  have again : typeClass.decode (answer (trimmed s) application) =
      .ok (.typeClass (.ofAnswer s application)) := by
    simp only [typeClass, answer, isMissing_trimmed, filled, Bool.false_eq_true, if_false,
      Reference.objectText, Option.getD_some, TypeClass.ofAnswer, trimmed_trimmed]
  exact .of_codec (show ValueType.typeClass ∈ codecTypes by decide)
    (show find? (builtin locale) .typeClass = some typeClass from rfl) rfl again

/-- A reference is written as it was read, with all its white space. -/
theorem returns_reference {target : ValueType} {codec : Codec} (hr : codec.decode = decodeReference)
    (null : Returns (builtin locale) applications target application .null)
    (hf : find? (builtin locale) target = some codec)
    (h : codec.decode (answer s application) = .ok value) :
    Returns (builtin locale) applications target application value := by
  have decoded := h
  rw [hr] at h
  obtain rfl | ⟨-, rfl⟩ := present_ok h
  · exact null
  · refine ⟨s, ?_, decodeAs_of_codec hf decoded applications⟩
    rw [encodeAs]
    rfl

end

/-- What a text was read as is written, and is what is read from that, for the same application. -/
theorem decodeAs_reencoded {target : ValueType} (ht : target ∈ stableTypes) (locale : String)
    (applications : Registry) {text : String} {application : Option String} {value : Value}
    (decoded : decodeAs (builtin locale) applications target (answer text application) =
      .ok value) :
    ∃ text', encodeAs (builtin locale) applications value = .ok text' ∧
      decodeAs (builtin locale) applications target (answer text' application) = .ok value := by
  have null (h : target ≠ .text) := returns_null locale applications ht h application
  have read {codec : Codec} (hf : find? (builtin locale) target = some codec) :=
    decode_of_decodeAs hf decoded
  cases target with
  | text => exact returns_text (read rfl)
  | integer =>
    have found : integer.decode (answer text application) = .ok value := read rfl
    exact returns_number (null nofun)
      (fun n => (roundTrips_integer locale n).returns applications application) found
  | short =>
    have found : short.decode (answer text application) = .ok value := read rfl
    exact returns_number (null nofun)
      (fun n => (roundTrips_short locale n).returns applications application) found
  | long =>
    have found : long.decode (answer text application) = .ok value := read rfl
    exact returns_number (null nofun)
      (fun n => (roundTrips_long locale n).returns applications application) found
  | boolean =>
    have found : boolean.decode (answer text application) = .ok value := read rfl
    obtain rfl | ⟨b, rfl⟩ := boolean_ok found
    · exact null nofun
    · exact (roundTrips_boolean locale b).returns applications application
  | point =>
    have found : Codec.point.decode (answer text application) = .ok value := read rfl
    refine returns_tuple rfl (null nofun) (fun built => ?_) found
    obtain ⟨p, rfl⟩ := pointOf?_ok built
    exact (roundTrips_point locale p).returns applications application
  | rgbColor =>
    have found : Codec.rgbColor.decode (answer text application) = .ok value := read rfl
    refine returns_tuple rfl (null nofun) (fun built => ?_) found
    obtain ⟨c, rfl⟩ := colorOf?_ok built
    exact (roundTrips_rgbColor locale c).returns applications application
  | data =>
    exact returns_binary (null nofun) (fun _ => rfl) (by decide) rfl (fun _ => rfl) (read rfl)
  | picture =>
    exact returns_binary (null nofun) (fun _ => rfl) (by decide) rfl (fun _ => rfl) (read rfl)
  | typedData =>
    exact returns_binary (null nofun) (fun _ => rfl) (by decide) rfl (fun _ => rfl) (read rfl)
  | file => exact returns_file (read rfl)
  | typeClass => exact returns_typeClass (read rfl)
  | record => exact returns_reference rfl (null nofun) rfl (read rfl)
  | reference => exact returns_reference rfl (null nofun) rfl (read rfl)
  | _ => exact absurd ht (by simp [stableTypes])

/-- A payload that is written otherwise than it was read: with white space around it, a kind that
takes four bytes in three characters, and a plus sign and lower case in the digits. -/
theorem decodeAs_reencoded_data :
    ValueType.data ∈ stableTypes ∧
      decodeAs (builtin "en_US") {} .data (answer "\t«data «x\x7b+f0a» " none) =
        .ok (.data { kind := "«x\x7b", bytes := [15, 10] }) ∧
      ∃ text', encodeAs (builtin "en_US") {} (.data { kind := "«x\x7b", bytes := [15, 10] }) =
        .ok text' ∧ decodeAs (builtin "en_US") {} .data (answer text' none) =
          .ok (.data { kind := "«x\x7b", bytes := [15, 10] }) := by
  have listed : ValueType.data ∈ stableTypes := by decide
  have decoded : decodeAs (builtin "en_US") {} .data (answer "\t«data «x\x7b+f0a» " none) =
      .ok (.data { kind := "«x\x7b", bytes := [15, 10] }) := by
    have payload : readData? "\t«data «x\x7b+f0a» ".toList =
        some { kind := "«x\x7b", bytes := [15, 10] } := by decide
    have filled : isMissing (some "\t«data «x\x7b+f0a» ") = false := by decide
    exact decodeAs_of_codec (show find? (builtin "en_US") .data = some data from rfl)
      (by simp only [data, binary, answer, filled, Bool.false_eq_true, if_false,
        Reference.objectText, Option.getD_some, payload]) {}
  exact ⟨listed, decoded, decodeAs_reencoded listed "en_US" {} decoded⟩

end ScriptBridge.Codec
