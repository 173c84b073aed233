import ScriptBridge.Proofs.Codec.Lists
import ScriptBridge.Proofs.Group.Margins
import ScriptBridge.Proofs.Value.Outcomes
/-!
White space around answers.

Each codec of a single value trims the text before it reads it, so white space around the text does
not matter to it (`Trims`). Lists and records are divided before anything is trimmed. White space
around them matters exactly where it changes the segments, and there it can be told from the files
that a list holds, whose specifiers are the segments as they are (`specifierCount_fileValue`). So
white space around a text is free for every type exactly if the text is no list, or the white space
takes nothing from its first and last characters (`decode_surrounded_iff`).
-/
namespace ScriptBridge.Codec

open Text ScriptBridge.Group

/-- The types of single values whose text is trimmed before it is read. -/
def trimmedTypes : List ValueType :=
  [.text, .integer, .short, .long, .boolean, .date, .point, .rectangle, .rgbColor, .data, .picture,
    .typedData, .file, .fileAlias, .typeClass]

/-- The types of single values, records, and lists of them at any depth. -/
inductive IsAnswerType : ValueType → Prop
  | single {target : ValueType} (h : target ∈ trimmedTypes) : IsAnswerType target
  | map : IsAnswerType .map
  | list {element : ValueType} (h : IsAnswerType element) : IsAnswerType (.list element)

/-! ## Single values -/

/-- A codec that finds a value in a text if and only if it finds it in the trimmed text. -/
structure Trims (codec : Codec) : Prop where
  decode_iff (text : String) (application : Option String) (value : Value) :
    codec.decode (answer (trimmed text) application) = .ok value ↔
      codec.decode (answer text application) = .ok value

theorem objectText_answer (text : String) (application : Option String) :
    (answer text application).objectText = text := rfl

theorem isMissingValue_answer (text : String) (application : Option String) :
    isMissingValue (answer (trimmed text) application).object =
      isMissingValue (answer text application).object :=
  congrArg (fun t => decide (some t = some missingValue)) (trimmed_trimmed text)

theorem isMissing_answer (text : String) (application : Option String) :
    isMissing (answer (trimmed text) application).object =
      isMissing (answer text application).object := isMissing_trimmed text

theorem toList_trimmed (text : String) : (trimmed text).toList = trim text.toList :=
  String.toList_ofList

theorem readTuple_trimmed_iff {kind : TupleKind} {count : Nat} {text : String}
    {numbers : List Int} : readTuple kind count (trimmed text) = .ok numbers ↔
      readTuple kind count text = .ok numbers := by
  simp only [readTuple, toList_trimmed, trim_trim]
  cases between? ['\x7b'] ['\x7d'] (trim text.toList) with
  | none => simp
  | some inner =>
    simp only
    split <;> simp

namespace Trims

theorem of_eq {codec : Codec} (h : ∀ text application,
    codec.decode (answer (trimmed text) application) = codec.decode (answer text application)) :
    codec.Trims := ⟨fun text application value => by rw [h]⟩

theorem text : text.Trims := .of_eq fun s application => by
  simp only [Codec.text, answer, toList_trimmed, Literal.unquote, trim_trim]

theorem number (target : ValueType) (names : List (String × String))
    (read : List Char → Except Number.Fault Value) : (number target names read).Trims :=
  .of_eq fun s application => by
    simp only [Codec.number, decodeNumber, objectText_answer, toList_trimmed, trim_trim]
    rw [isMissingValue_answer]

theorem boolean : boolean.Trims := .of_eq fun s application => by
  simp only [Codec.boolean, objectText_answer, toList_trimmed, trim_trim]
  rw [isMissingValue_answer]
  rfl

theorem file : file.Trims := .of_eq fun s application => by
  simp only [Codec.file, objectText_answer, trimmed_trimmed]
  rw [isMissing_answer]

theorem fileAlias : fileAlias.Trims := .of_eq fun s application => by
  simp only [Codec.fileAlias, objectText_answer, trimmed_trimmed]
  rw [isMissing_answer]

theorem typeClass : typeClass.Trims := .of_eq fun s application => by
  simp only [Codec.typeClass, objectText_answer, TypeClass.ofAnswer, trimmed_trimmed]
  rw [isMissing_answer]
  rfl

theorem date (locale : Calendar.Locale) : (date locale).Trims := by
  refine ⟨fun s application value => ?_⟩
  have visible : isBlank '"' = false := by decide
  have read : readDate locale (trim s.toList) = readDate locale s.toList := by
    simp only [readDate, trim_trim, betweenOuter?_trim visible]
  simp only [Codec.date, objectText_answer, toList_trimmed, read]
  rw [isMissingValue_answer]
  split
  · rfl
  · cases readDate locale s.toList <;> simp

theorem binary (target : ValueType) (names : List (String × String)) (wrap : Data → Value) :
    (binary target names wrap).Trims := by
  refine ⟨fun s application value => ?_⟩
  have read : readData? (trim s.toList) = readData? s.toList := by
    simp only [readData?, trim_trim]
  simp only [Codec.binary, objectText_answer, toList_trimmed, read]
  rw [isMissing_answer]
  split
  · rfl
  · cases readData? s.toList <;> simp

theorem tuple {codec : Codec} {kind : TupleKind} {count : Nat} {build : List Int → Option Value}
    (h : codec.decode = decodeTuple kind count build) : codec.Trims := by
  refine ⟨fun s application value => ?_⟩
  rw [h, decodeTuple_eq_ok_iff, decodeTuple_eq_ok_iff, isMissingValue_answer]
  simp only [objectText_answer, readTuple_trimmed_iff]

end Trims

theorem exists_trims (locale : String) : ∀ target ∈ trimmedTypes,
    ∃ codec, find? (builtin locale) target = some codec ∧ codec.Trims := by
  simp only [trimmedTypes, List.forall_mem_cons]
  exact ⟨⟨_, rfl, .text⟩, ⟨_, rfl, .number _ _ _⟩, ⟨_, rfl, .number _ _ _⟩, ⟨_, rfl, .number _ _ _⟩,
    ⟨_, rfl, .boolean⟩, ⟨_, rfl, .date _⟩, ⟨_, rfl, .tuple rfl⟩, ⟨_, rfl, .tuple rfl⟩,
    ⟨_, rfl, .tuple rfl⟩, ⟨_, rfl, .binary _ _ _⟩, ⟨_, rfl, .binary _ _ _⟩, ⟨_, rfl, .binary _ _ _⟩,
    ⟨_, rfl, .file⟩, ⟨_, rfl, .fileAlias⟩, ⟨_, rfl, .typeClass⟩, by simp⟩

theorem decodeAs_trimmed_iff {locale : String} {applications : Registry} {target : ValueType}
    (h : target ∈ trimmedTypes) {text : String} {application : Option String} {value : Value} :
    decodeAs (builtin locale) applications target (answer (trimmed text) application) =
        .ok value ↔
      decodeAs (builtin locale) applications target (answer text application) = .ok value := by
  obtain ⟨codec, found, trims⟩ := exists_trims locale target h
  rw [decodeAs_eq_ok_iff found, decodeAs_eq_ok_iff found, trims.decode_iff]

/-! ## Lists and records with the same segments -/

section
variable {a b : String} (h : segments? a.toList = segments? b.toList)
include h

theorem splitRecord_of_segments {entries : List (String × String)}
    (ha : splitRecord a = .ok entries) : splitRecord b = .ok entries := by
  rw [splitRecord, ← h]
  rw [splitRecord] at ha
  cases found : segments? a.toList with
  | none =>
    rw [found] at ha
    cases ha
  | some segments =>
    rw [found] at ha
    refine mapM_ok_of_imp (fun segment entry split => ?_) ha
    -- The whole text is part of the error for an entry without a key only.
    unfold splitEntry at split ⊢
    split at split
    · cases split
    · exact split

theorem decodeMap_of_segments {application : Option String} {value : Value}
    (ha : decodeMap (answer a application) = .ok value) :
    decodeMap (answer b application) = .ok value := by
  simp only [decodeMap, answer] at ha ⊢
  cases found : splitRecord a with
  | error e =>
    rw [found] at ha
    cases ha
  | ok entries =>
    rw [found] at ha
    rw [splitRecord_of_segments h found]
    exact ha

theorem decodeAs_list_of_segments {locale : String} {applications : Registry} {element : ValueType}
    {application : Option String} {value : Value}
    (ha : decodeAs (builtin locale) applications (.list element) (answer a application) =
      .ok value) :
    decodeAs (builtin locale) applications (.list element) (answer b application) = .ok value := by
  cases split : splitList a with
  | error e =>
    rw [decodeAs, find?_list] at ha
    simp [answer, split] at ha
  | ok items =>
    have split' : splitList b = .ok items := by
      rw [splitList_eq_ok_iff, ← h]
      exact splitList_eq_ok_iff.mp split
    rw [decodeAs_list split] at ha
    rw [decodeAs_list split']
    exact ha

end

/-! ## Lists of files -/

/-- What a text is read as, as a file. -/
def fileValue (text : String) : Value :=
  if isMissing (some text) then .null else .file (readFile (trimmed text))

/-- How often a character occurs in the specifier of a file. -/
def specifierCount (x : Char) : Value → Nat
  | .file f => f.specifier.toList.count x
  | _ => 0

theorem file_decode_answer (text : String) (application : Option String) :
    file.decode (answer text application) = .ok (fileValue text) := by
  unfold fileValue
  cases missing : isMissing (some text) with
  | true => simp only [file, answer, missing, if_true]
  | false =>
    rw [file_decode missing application, if_neg Bool.false_ne_true]

theorem decodeAs_files {text : String} {items : List String} (h : splitList text = .ok items)
    (locale : String) (applications : Registry) (application : Option String) :
    decodeAs (builtin locale) applications (.list .file) (answer text application) =
      .ok (.list (items.map fileValue)) := by
  have found : find? (builtin locale) .file = some file := rfl
  have each : ∀ item ∈ items, decodeAs (builtin locale) applications .file
      (answer item application) = .ok (fileValue item) := fun item _ =>
    decodeAs_of_codec found (file_decode_answer item application) applications
  rw [decodeAs_list h, mapM_eq_ok each]
  rfl

theorem specifierCount_fileValue {x : Char} (hx : x ∈ ['\x7b', '\x7d', ',']) (text : String) :
    specifierCount x (fileValue text) = text.toList.count x := by
  obtain ⟨visible, blank, null, missing'⟩ : isBlank x = false ∧ "".toList.count x = 0 ∧
      "null".toList.count x = 0 ∧ missingValue.toList.count x = 0 := by
    simp only [List.mem_cons, List.not_mem_nil, or_false] at hx
    rcases hx with rfl | rfl | rfl <;> decide
  rw [← count_trim visible, ← toList_trimmed]
  unfold fileValue
  by_cases missing : isMissing (some text) = true
  · rw [if_pos missing, show specifierCount x .null = 0 from rfl]
    simp only [isMissing, Bool.or_eq_true, decide_eq_true_eq] at missing
    rcases missing with (e | e) | e
    · rw [e, blank]
    · rw [e, null]
    · rw [e, missing']
  · rw [if_neg missing]
    rfl

theorem count_flatten_eq {x : Char} (hx : x ∈ ['\x7b', '\x7d', ',']) (segments : List (List Char)) :
    segments.flatten.count x =
      (((segments.map String.ofList).map fileValue).map (specifierCount x)).sum := by
  rw [List.count_flatten, List.map_map, List.map_map]
  refine congrArg List.sum (List.map_congr_left fun segment _ => ?_)
  rw [Function.comp_apply, Function.comp_apply, specifierCount_fileValue hx, String.toList_ofList]

/-! ## White space around a text -/

/-- White space around a text matters to no single value, and to lists and records exactly where it
takes a brace or comma from a text that is divided. -/
theorem decode_surrounded_iff (locale : String) (applications : Registry)
    (application : Option String) {before text after : String} (hb : AllBlank before.toList)
    (ha : AllBlank after.toList) :
    (∀ target ∈ trimmedTypes, ∀ value,
      decodeAs (builtin locale) applications target (answer (before ++ text ++ after) application) =
          .ok value ↔
        decodeAs (builtin locale) applications target (answer text application) = .ok value) ∧
    ((∀ target, IsAnswerType target → ∀ value,
      decodeAs (builtin locale) applications target (answer text application) = .ok value →
        decodeAs (builtin locale) applications target
          (answer (before ++ text ++ after) application) = .ok value) ↔
      ((∃ items, splitList text = .ok items) →
        ¬Disturbs before.toList text.toList after.toList)) := by
  have whole : (before ++ text ++ after).toList = before.toList ++ text.toList ++ after.toList := by
    simp
  have single : ∀ target ∈ trimmedTypes, ∀ value,
      decodeAs (builtin locale) applications target (answer (before ++ text ++ after) application) =
          .ok value ↔
        decodeAs (builtin locale) applications target (answer text application) = .ok value := by
    intro target h value
    have same : trimmed (before ++ text ++ after) = trimmed text := by
      rw [trimmed, whole, trim_surrounded hb ha, trimmed]
    rw [← decodeAs_trimmed_iff h, same, decodeAs_trimmed_iff h]
  refine ⟨single, fun law divided disturbs => ?_, fun h target answers value decoded => ?_⟩
  · obtain ⟨x, hx, segments, segments', found, found', different⟩ :=
      count_segments_ne hb ha (exists_splitList_iff.mp divided) disturbs
    rw [← whole] at found'
    have files := law (.list .file) (.list (.single (by decide))) _ (decodeAs_files
      (splitList_eq_ok_iff.mpr ⟨segments, found, rfl⟩) locale applications application)
    rw [decodeAs_files (splitList_eq_ok_iff.mpr ⟨segments', found', rfl⟩), Except.ok.injEq,
      Value.list.injEq] at files
    rw [count_flatten_eq hx, count_flatten_eq hx, files] at different
    exact different rfl
  · have same : segments? text.toList = segments? (before ++ text ++ after).toList := by
      rw [whole, segments?_surrounded hb ha fun balanced => h (exists_splitList_iff.mpr balanced)]
    cases answers with
    | single h => exact (single target h value).mpr decoded
    | map =>
      rw [decodeAs_map] at decoded ⊢
      exact decodeMap_of_segments same decoded
    | list _ => exact decodeAs_list_of_segments same decoded

/-- A list without braces may stand on a line of its own; a list in braces may not be indented. -/
theorem decode_surrounded_lists :
    AllBlank " ".toList ∧ AllBlank "\n".toList ∧
      (∀ target, IsAnswerType target → ∀ value,
        decodeAs (builtin "en_US") {} target (answer "1, 2" none) = .ok value →
          decodeAs (builtin "en_US") {} target (answer (" " ++ "1, 2" ++ "\n") none) =
            .ok value) ∧
      ¬∀ target, IsAnswerType target → ∀ value,
        decodeAs (builtin "en_US") {} target (answer "\x7b1, 2\x7d" none) = .ok value →
          decodeAs (builtin "en_US") {} target (answer (" " ++ "\x7b1, 2\x7d" ++ "\n") none) =
            .ok value := by
  have space : AllBlank " ".toList := by decide
  have line : AllBlank "\n".toList := by decide
  refine ⟨space, line, ?_, ?_⟩
  · exact (decode_surrounded_iff "en_US" {} none space line).2.mpr fun _ => by decide
  · rw [(decode_surrounded_iff "en_US" {} none space line).2]
    intro h
    exact h ⟨["1", "2"], by decide⟩ (by decide)

end ScriptBridge.Codec
