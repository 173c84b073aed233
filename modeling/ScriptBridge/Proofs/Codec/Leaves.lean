import ScriptBridge.Proofs.Codec.Items
import ScriptBridge.Proofs.Group.Kept
import ScriptBridge.Proofs.Text.Bytes
/-!
Values that are no lists are read back.

A value that its codec writes as an item of lists and reads from it again survives the chain of
codecs (`RoundTrips.of_codec`). Numbers, booleans, compounds of numbers, binary data and texts do,
and so does the missing value where it is read as such.
-/
namespace ScriptBridge.Codec

open Text ScriptBridge.Group Number

/-- An object half that comes from some application, or from none. -/
def answer (text : String) (application : Option String) : Reference :=
  { object := some text, application }

/-- A text that a value is written as and read from, and that may be an item of a list. -/
structure RoundTrips (codecs : List Codec) (target : ValueType) (value : Value) (text : String) :
    Prop where
  item : Item text.toList
  encoded : ∀ applications, encodeAs codecs applications value = .ok text
  decoded : ∀ applications application,
    decodeAs codecs applications target (answer text application) = .ok value

/-- The types of the values that are written by a codec; others are written by the chain itself. -/
def codecTypes : List ValueType :=
  [.text, .integer, .short, .long, .float, .double, .boolean, .date, .data, .picture, .typedData,
    .point, .rectangle, .rgbColor, .file, .fileAlias, .typeClass]

/-- The types for which `missing value` is the missing value. -/
def nullableTypes : List ValueType :=
  [.integer, .short, .long, .boolean, .point, .rectangle, .rgbColor, .data, .picture, .typedData]

section
variable {codecs : List Codec} {codec : Codec} {value : Value} {text : String}

theorem find?_accepts (codecs : List Codec) (value : Value) :
    codecs.find? (·.accepts value) = find? codecs value.valueType := by
  unfold find?
  congr 1
  funext codec
  simp only [accepts, eq_comm]

theorem encodeAs_eq_encodeWith (h : value.valueType ∈ codecTypes)
    (applications : Registry) : encodeAs codecs applications value = encodeWith codecs value := by
  cases value with
  | list items => cases items <;> simp [Value.valueType, codecTypes] at h
  | null | map | reference | object | constant | id | interface =>
    simp [Value.valueType, codecTypes] at h
  | _ => rw [encodeAs] <;> simp

theorem encodeAs_of_codec (h : value.valueType ∈ codecTypes)
    (hf : find? codecs value.valueType = some codec) (applications : Registry) :
    encodeAs codecs applications value = codec.encode value := by
  rw [encodeAs_eq_encodeWith h, encodeWith, find?_accepts, hf]

theorem decodeAs_of_codec {target : ValueType} (hf : find? codecs target = some codec)
    {reference : Reference} (hd : codec.decode reference = .ok value) (applications : Registry) :
    decodeAs codecs applications target reference = .ok value := by
  unfold decodeAs
  simp only [hf, decodeWith, hd]

theorem decode_of_decodeAs {target : ValueType} (hf : find? codecs target = some codec)
    {applications : Registry} {reference : Reference}
    (h : decodeAs codecs applications target reference = .ok value) :
    codec.decode reference = .ok value := by
  unfold decodeAs at h
  simp only [hf, decodeWith] at h
  split at h
  · cases h
  · exact h

theorem decodeAs_eq_ok_iff {target : ValueType} (hf : find? codecs target = some codec)
    {applications : Registry} {reference : Reference} :
    decodeAs codecs applications target reference = .ok value ↔
      codec.decode reference = .ok value :=
  ⟨decode_of_decodeAs hf, fun h => decodeAs_of_codec hf h applications⟩

theorem RoundTrips.of_codec {target : ValueType} (hv : value.valueType = target)
    (ht : target ∈ codecTypes) (hf : find? codecs target = some codec)
    (item : Item text.toList) (he : codec.encode value = .ok text)
    (hd : ∀ application, codec.decode (answer text application) = .ok value) :
    RoundTrips codecs target value text := by
  subst hv
  exact ⟨item, fun applications => (encodeAs_of_codec ht hf applications).trans he,
    fun applications application => decodeAs_of_codec hf (hd application) applications⟩

end

/-! ## Texts that are not missing -/

theorem trimmed_of_tight {text : String} (ht : Tight text.toList) : trimmed text = text := by
  rw [trimmed, ht.trim_eq, String.ofList_toList]

theorem isMissingValue_eq_false {text : String} (ht : Tight text.toList)
    (h : text.toList.head? ≠ some 'm') : isMissingValue (some text) = false := by
  simp only [isMissingValue, Option.map_some, trimmed_of_tight ht, Option.some.injEq,
    decide_eq_false_iff_not]
  rintro rfl
  exact h (by decide)

theorem isMissing_eq_false {text : String} (ht : Tight text.toList)
    (h : text.toList.head? ≠ some 'm' ∧ text.toList.head? ≠ some 'n') :
    isMissing (some text) = false := by
  simp only [isMissing, trimmed_of_tight ht, Bool.or_eq_false_iff, decide_eq_false_iff_not]
  refine ⟨⟨?_, ?_⟩, ?_⟩
  · rintro rfl
    obtain ⟨c, r, e, -⟩ := ht.first
    exact absurd e (by simp)
  · rintro rfl
    exact h.2 (by decide)
  · rintro rfl
    exact h.1 (by decide)

theorem isMissing_trimmed (s : String) : isMissing (some (trimmed s)) = isMissing (some s) := by
  simp only [isMissing, trimmed_trimmed]

/-! ## Types that no codec is there for -/

theorem isMissing_of_isBlankObject {object : Option String} (h : isBlankObject object = true) :
    isMissing object = true := by
  cases object with
  | none => rfl
  | some text =>
    have nothing : trimmed text = "" := by simpa [isBlankObject] using h
    simp [isMissing, nothing]

theorem isMissing_objectText (reference : Reference) :
    isMissing (some reference.objectText) = isMissing reference.object := by
  cases h : reference.object with
  | none =>
    rw [Reference.objectText, h]
    decide
  | some text => rw [Reference.objectText, h, Option.getD_some]

section
variable (locale : String) (applications : Registry) (reference : Reference)

theorem decodeAs_map :
    decodeAs (builtin locale) applications .map reference = decodeMap reference := by
  rw [decodeAs, show find? (builtin locale) .map = none from rfl]

/-- White space is missing for constants too, so it need not be set apart. -/
theorem decodeAs_enumeration (name : String) :
    decodeAs (builtin locale) applications (.enumeration name) reference =
      decodeConstant applications name reference := by
  rw [decodeAs, show find? (builtin locale) (.enumeration name) = none from rfl]
  cases blank : isBlankObject reference.object with
  | false => simp only [Bool.false_eq_true, if_false]
  | true =>
    have missing : isMissing (some (trimmed reference.objectText)) = true := by
      rw [isMissing_trimmed, isMissing_objectText, isMissing_of_isBlankObject blank]
    simp only [if_true, decodeConstant, missing]

/-- White space is missing for objects too, whatever the other codecs are. -/
theorem decodeAs_object {codecs : List Codec} {interface : String}
    (uncoded : find? codecs (.object interface) = none) :
    decodeAs codecs applications (.object interface) reference =
      decodeObject applications interface reference := by
  rw [decodeAs, uncoded]
  cases blank : isBlankObject reference.object with
  | false => simp only [Bool.false_eq_true, if_false]
  | true => simp only [if_true, decodeObject, isMissing_of_isBlankObject blank]

end

/-! ## Numbers -/

theorem decodeNumber_showInt {read : List Char → Except Fault Value} {n : Int} {value : Value}
    (h : read (intText n) = .ok value) (application : Option String) :
    decodeNumber read (answer (showInt n) application) = .ok value := by
  have text : (showInt n).toList = intText n := String.toList_ofList
  have missing : isMissingValue (some (showInt n)) = false := by
    apply isMissingValue_eq_false
    · rw [text]
      exact intText_tight n
    · intro hm
      rw [text] at hm
      exact absurd (isNumeral_of_mem 'm' (List.mem_of_mem_head? hm)) (by decide)
  rw [decodeNumber]
  simp only [answer, missing, Bool.false_eq_true, if_false, Reference.objectText, Option.getD_some,
    text, (intText_tight n).trim_eq, h]

theorem showInt_item (n : Int) : Item (showInt n).toList := by
  rw [showInt, String.toList_ofList]
  exact intText_item n

theorem RoundTrips.of_number {codecs : List Codec} {target : ValueType} {value : Value}
    {names : List (String × String)} {read : List Char → Except Fault Value} {n : Int}
    (hv : value.valueType = target) (ht : target ∈ codecTypes)
    (hf : find? codecs target = some (number target names read))
    (he : encodeNumber target.render value = .ok (showInt n))
    (hr : read (intText n) = .ok value) : RoundTrips codecs target value (showInt n) := by
  refine RoundTrips.of_codec hv ht hf (showInt_item n) he fun application => ?_
  rw [show (number target names read).decode = decodeNumber read from rfl]
  exact decodeNumber_showInt hr application

theorem roundTrips_integer (locale : String) (n : Int32) :
    RoundTrips (builtin locale) .integer (.integer n) (showInt n.toInt) := by
  have read : (readInt32 (intText n.toInt)).map Value.integer = .ok (.integer n) := by
    rw [readInt32_intText]
    rfl
  exact .of_number rfl (by decide) (show find? (builtin locale) .integer = some integer from rfl)
    rfl read

theorem roundTrips_short (locale : String) (n : Int16) :
    RoundTrips (builtin locale) .short (.short n) (showInt n.toInt) := by
  have read : (readInt16 (intText n.toInt)).map Value.short = .ok (.short n) := by
    rw [readInt16_intText]
    rfl
  exact .of_number rfl (by decide) (show find? (builtin locale) .short = some short from rfl)
    rfl read

theorem roundTrips_long (locale : String) (n : Int64) :
    RoundTrips (builtin locale) .long (.long n) (showInt n.toInt) := by
  have read : (readInt64 (intText n.toInt)).map Value.long = .ok (.long n) := by
    rw [readInt64_intText]
    rfl
  exact .of_number rfl (by decide) (show find? (builtin locale) .long = some long from rfl)
    rfl read

/-! ## Booleans -/

/-- The word for a truth value. -/
def boolText (b : Bool) : String := if b then "true" else "false"

theorem boolean_decode (b : Bool) (application : Option String) :
    boolean.decode (answer (boolText b) application) = .ok (.boolean b) := by
  have missing : isMissingValue (some (boolText b)) = false := by cases b <;> decide
  have filled : (trim (boolText b).toList).isEmpty = false := by cases b <;> decide
  have word : decide ((trim (boolText b).toList).map Char.toLower = "true".toList) = b := by
    cases b <;> decide
  simp only [boolean, answer, missing, Reference.objectText, Option.getD_some, filled,
    Bool.false_eq_true, if_false]
  exact congrArg (fun b => Except.ok (Value.boolean b)) word

theorem roundTrips_boolean (locale : String) (b : Bool) :
    RoundTrips (builtin locale) .boolean (.boolean b) (boolText b) := by
  have inert : Inert (boolText b).toList := by cases b <;> decide
  have tight : Tight (boolText b).toList := by
    cases b
    · exact (Tight.of_ends (by decide) (by decide) ['a', 'l', 's'] : Tight "false".toList)
    · exact (Tight.of_ends (by decide) (by decide) ['r', 'u'] : Tight "true".toList)
  exact .of_codec rfl (by decide) (show find? (builtin locale) .boolean = some boolean from rfl)
    (Item.of_inert tight inert) rfl (boolean_decode b)

/-! ## Compounds of numbers -/

theorem decodeTuple_eq_ok_iff {kind : TupleKind} {count : Nat} {build : List Int → Option Value}
    {reference : Reference} {value : Value} :
    decodeTuple kind count build reference = .ok value ↔
      (isMissingValue reference.object = true ∧ .null = value) ∨
      (isMissingValue reference.object = false ∧ ∃ numbers,
        readTuple kind count reference.objectText = .ok numbers ∧ build numbers = some value) := by
  rw [decodeTuple]
  cases isMissingValue reference.object with
  | true => simp
  | false =>
    cases readTuple kind count reference.objectText with
    | error e => simp
    | ok numbers =>
      simp only [Except.ok.injEq, exists_eq_left', Bool.false_eq_true, if_false, false_and, true_and,
        false_or]
      cases build numbers <;> simp

theorem decodeTuple_braced {kind : TupleKind} {numbers : List Int} {build : List Int → Option Value}
    {value : Value} (hne : numbers ≠ [])
    (h : ∀ n ∈ numbers, -9223372036854775808 ≤ n ∧ n ≤ 9223372036854775807)
    (hb : build numbers = some value) (application : Option String) :
    decodeTuple kind numbers.length build (answer (braced numbers) application) = .ok value := by
  have missing : isMissingValue (some (braced numbers)) = false := by
    apply isMissingValue_eq_false (braced_item numbers).tight
    rw [toList_braced]
    simp [listText]
  simp only [decodeTuple, answer, missing, Bool.false_eq_true, if_false, Reference.objectText,
    Option.getD_some, readTuple_braced kind hne h, hb]

theorem RoundTrips.of_tuple {codecs : List Codec} {codec : Codec} {target : ValueType}
    {value : Value} {kind : TupleKind} {numbers : List Int} {build : List Int → Option Value}
    (hv : value.valueType = target) (ht : target ∈ codecTypes)
    (hf : find? codecs target = some codec) (he : codec.encode value = .ok (braced numbers))
    (hd : codec.decode = decodeTuple kind numbers.length build) (hne : numbers ≠ [])
    (h : ∀ n ∈ numbers, -9223372036854775808 ≤ n ∧ n ≤ 9223372036854775807)
    (hb : build numbers = some value) : RoundTrips codecs target value (braced numbers) := by
  refine .of_codec hv ht hf (braced_item numbers) he fun application => ?_
  rw [hd]
  exact decodeTuple_braced hne h hb application

theorem fitsInt32_toInt (n : Int32) : fitsInt32 n.toInt = true := by
  have h₁ := n.le_toInt
  have h₂ := n.toInt_lt
  simp only [fitsInt32, Bool.and_eq_true, decide_eq_true_eq]
  omega

theorem toInt_add_eq_iff {m n : Int32} :
    (m + n).toInt = m.toInt + n.toInt ↔ fitsInt32 (m.toInt + n.toInt) = true := by
  simp only [fitsInt32, Bool.and_eq_true, decide_eq_true_eq]
  constructor
  · intro exact
    rw [← exact]
    exact ⟨(m + n).le_toInt, Int.le_of_lt_add_one (m + n).toInt_lt⟩
  · rintro ⟨low, high⟩
    rw [Int32.toInt_add]
    exact Int.bmod_eq_of_le (by omega) (by omega)

theorem fitsUInt16_toNat (n : UInt16) : fitsUInt16 n.toNat = true := by
  have h := n.toNat_lt
  simp only [fitsUInt16, Bool.and_eq_true, decide_eq_true_eq]
  omega

theorem int64_of_fitsInt32 {n : Int} (h : fitsInt32 n = true) :
    -9223372036854775808 ≤ n ∧ n ≤ 9223372036854775807 := by
  simp only [fitsInt32, Bool.and_eq_true, decide_eq_true_eq] at h
  omega

theorem int64_of_fitsUInt16 {n : Int} (h : fitsUInt16 n = true) :
    -9223372036854775808 ≤ n ∧ n ≤ 9223372036854775807 := by
  simp only [fitsUInt16, Bool.and_eq_true, decide_eq_true_eq] at h
  omega

section
variable (locale : String)

theorem roundTrips_point (p : Point) :
    RoundTrips (builtin locale) .point (.point p) (braced [p.x.toInt, p.y.toInt]) := by
  have hx := fitsInt32_toInt p.x
  have hy := fitsInt32_toInt p.y
  have built : pointOf? [p.x.toInt, p.y.toInt] = some (.point p) := by
    rw [pointOf?, hx, hy, p.x.ofInt_toInt, p.y.ofInt_toInt]
    rfl
  refine .of_tuple rfl (by decide) (show find? (builtin locale) .point = some point from rfl)
    rfl rfl (by simp) ?_ built
  simp only [List.forall_mem_cons, List.not_mem_nil, false_imp_iff, implies_true, and_true]
  exact ⟨int64_of_fitsInt32 hx, int64_of_fitsInt32 hy⟩

/-- Whether the corner of a rectangle that is not its origin is a point of the screen. -/
def HasFarCorner (r : Rectangle) : Prop :=
  fitsInt32 (r.x.toInt + r.width.toInt) = true ∧ fitsInt32 (r.y.toInt + r.height.toInt) = true

instance (r : Rectangle) : Decidable (HasFarCorner r) := inferInstanceAs (Decidable (_ ∧ _))

/-- The numbers of the origin of a rectangle and of the corner across from it. -/
def corners (r : Rectangle) : List Int :=
  [r.x.toInt, r.y.toInt, r.x.toInt + r.width.toInt, r.y.toInt + r.height.toInt]

theorem rectangleOf?_eq_some_iff {numbers : List Int} {r : Rectangle} :
    rectangleOf? numbers = some (.rectangle r) ↔ numbers = corners r := by
  constructor
  · intro h
    have exact {n : Int} (fits : fitsInt32 n = true) : (Int32.ofInt n).toInt = n := by
      simp only [fitsInt32, Bool.and_eq_true, decide_eq_true_eq] at fits
      exact Int32.toInt_ofInt_of_le (by omega) (by omega)
    unfold rectangleOf? at h
    split at h
    · next left top right bottom =>
      split at h
      · next fits =>
        simp only [Bool.and_eq_true] at fits
        obtain ⟨⟨⟨fitsLeft, fitsTop⟩, fitsWidth⟩, fitsHeight⟩ := fits
        cases h
        simp only [corners, exact fitsLeft, exact fitsTop, exact fitsWidth, exact fitsHeight,
          add_sub_cancel]
      · cases h
    · cases h
  · rintro rfl
    have width : r.x.toInt + r.width.toInt - r.x.toInt = r.width.toInt := by omega
    have height : r.y.toInt + r.height.toInt - r.y.toInt = r.height.toInt := by omega
    rw [corners, rectangleOf?, width, height, fitsInt32_toInt, fitsInt32_toInt, fitsInt32_toInt,
      fitsInt32_toInt, r.x.ofInt_toInt, r.y.ofInt_toInt, r.width.ofInt_toInt, r.height.ofInt_toInt]
    rfl

theorem roundTrips_rectangle {r : Rectangle} (h : HasFarCorner r) :
    RoundTrips (builtin locale) .rectangle (.rectangle r) (braced (corners r)) := by
  have written : rectangle.encode (.rectangle r) = .ok (braced (corners r)) := by
    rw [corners, ← toInt_add_eq_iff.mpr h.1, ← toInt_add_eq_iff.mpr h.2]
    rfl
  refine .of_tuple rfl (by decide)
    (show find? (builtin locale) .rectangle = some rectangle from rfl) written rfl
    (List.cons_ne_nil _ _) ?_ (rectangleOf?_eq_some_iff.mpr rfl)
  simp only [corners, List.forall_mem_cons, List.not_mem_nil, false_imp_iff, implies_true, and_true]
  exact ⟨int64_of_fitsInt32 (fitsInt32_toInt r.x), int64_of_fitsInt32 (fitsInt32_toInt r.y),
    int64_of_fitsInt32 h.1, int64_of_fitsInt32 h.2⟩

theorem roundTrips_rgbColor (c : Color) :
    RoundTrips (builtin locale) .rgbColor (.rgbColor c)
      (braced [c.red.toNat, c.green.toNat, c.blue.toNat]) := by
  have hr := fitsUInt16_toNat c.red
  have hg := fitsUInt16_toNat c.green
  have hb := fitsUInt16_toNat c.blue
  have channel (n : UInt16) : UInt16.ofNat (n.toNat : Int).toNat = n := by simp
  have built : colorOf? [c.red.toNat, c.green.toNat, c.blue.toNat] = some (.rgbColor c) := by
    rw [colorOf?, hr, hg, hb, channel, channel, channel]
    rfl
  refine .of_tuple rfl (by decide)
    (show find? (builtin locale) .rgbColor = some rgbColor from rfl) rfl rfl (by simp) ?_ built
  simp only [List.forall_mem_cons, List.not_mem_nil, false_imp_iff, implies_true, and_true]
  exact ⟨int64_of_fitsUInt16 hr, int64_of_fitsUInt16 hg, int64_of_fitsUInt16 hb⟩

end

/-! ## Binary data -/

/-- Whether the kind of a payload is written with four ASCII letters or digits. -/
structure HasPlainKind (d : Data) : Prop where
  four : d.kind.toList.length = 4
  plain : ∀ c ∈ d.kind.toList, c.isAlphanum = true

/-- How many bytes a text takes. -/
def byteLength (s : List Char) : Nat := (s.map Char.utf8Size).sum

theorem byteLength_cons (c : Char) (s : List Char) :
    byteLength (c :: s) = c.utf8Size + byteLength s := by
  rw [byteLength, List.map_cons, List.sum_cons]
  rfl

/-- The kind at the start of a text is the part of it that takes so many bytes. -/
theorem firstBytes?_eq_kind_iff {n : Nat} {text kind rest : List Char} :
    firstBytes? n text = some (kind, rest) ↔ text = kind ++ rest ∧ byteLength kind = n :=
  firstBytes?_eq_some_iff

theorem utf8Size_of_isAlphanum {c : Char} (h : c.isAlphanum = true) : c.utf8Size = 1 := by
  have range := toNat_of_isAlphanum h
  rw [Char.utf8Size_eq_one_iff, UInt32.le_iff_toNat_le]
  exact Nat.le_trans range.2 (by decide)

section
variable {d : Data}

theorem toList_dataLiteral (d : Data) :
    (dataLiteral d).toList = dataOpening ++ (d.kind.toList ++ Hex.upper d.bytes) ++ ['»'] := by
  rw [dataLiteral, String.toList_ofList, List.append_assoc dataOpening]

theorem dataLiteral_tight (d : Data) : Tight (dataLiteral d).toList := by
  rw [toList_dataLiteral]
  exact Tight.of_ends (by decide) (by decide) _

theorem HasPlainKind.byteLength_eq (h : HasPlainKind d) : byteLength d.kind.toList = 4 := by
  have ones : d.kind.toList.map Char.utf8Size = List.replicate 4 1 := by
    rw [List.eq_replicate_iff, List.length_map, h.four, List.forall_mem_map]
    exact ⟨rfl, fun c hc => utf8Size_of_isAlphanum (h.plain c hc)⟩
  rw [byteLength, ones]
  rfl

/-- A payload is read from its literal if its kind takes four bytes. -/
theorem readData?_dataLiteral (h : byteLength d.kind.toList = 4) :
    readData? (dataLiteral d).toList = some d := by
  have body : between? dataOpening ['»'] (dataLiteral d).toList =
      some (d.kind.toList ++ Hex.upper d.bytes) := by
    rw [toList_dataLiteral]
    exact between?_append _ _ _
  have kind : firstBytes? 4 (d.kind.toList ++ Hex.upper d.bytes) =
      some (d.kind.toList, Hex.upper d.bytes) := firstBytes?_eq_kind_iff.mpr ⟨rfl, h⟩
  rw [readData?, (dataLiteral_tight d).trim_eq, body, Option.bind_some, kind, Option.bind_some]
  simp only [Hex.bytes?_upper, Option.map_some, String.ofList_toList]

theorem dataLiteral_item (h : HasPlainKind d) : Item (dataLiteral d).toList := by
  refine Item.of_inert (dataLiteral_tight d) fun c hc => ?_
  rw [toList_dataLiteral] at hc
  simp only [List.mem_append] at hc
  rcases hc with (hc | hc | hc) | hc
  · exact List.all_eq_true.mp (by decide : dataOpening.all isInert = true) c hc
  · exact (plain_of_isAlphanum (h.plain c hc)).1
  · exact Hex.forall_mem_upper (P := fun c => isInert c = true) (by decide) _ c hc
  · exact List.all_eq_true.mp (by decide : ['»'].all isInert = true) c hc

theorem byteLength_of_readData? {s : List Char} (h : readData? s = some d) :
    byteLength d.kind.toList = 4 := by
  unfold readData? at h
  obtain ⟨body, -, h⟩ := Option.bind_eq_some_iff.mp h
  obtain ⟨⟨kind, digits⟩, found, h⟩ := Option.bind_eq_some_iff.mp h
  obtain ⟨bytes, -, rfl⟩ := Option.map_eq_some_iff.mp h
  rw [String.toList_ofList, (firstBytes?_eq_kind_iff.mp found).2]

theorem binary_decode {target : ValueType} {wrap : Data → Value} {names : List (String × String)}
    (h : byteLength d.kind.toList = 4) (application : Option String) :
    (binary target names wrap).decode (answer (dataLiteral d) application) = .ok (wrap d) := by
  have filled : isMissing (some (dataLiteral d)) = false := by
    apply isMissing_eq_false (dataLiteral_tight d)
    rw [toList_dataLiteral, show dataOpening = '«' :: dataOpening.tail from by decide]
    simp
  simp only [binary, answer, filled, Bool.false_eq_true, if_false, Reference.objectText,
    Option.getD_some, readData?_dataLiteral h]

theorem RoundTrips.of_binary {codecs : List Codec} {target : ValueType} {wrap : Data → Value}
    {names : List (String × String)} (h : HasPlainKind d) (hv : (wrap d).valueType = target)
    (ht : target ∈ codecTypes) (hf : find? codecs target = some (binary target names wrap))
    (he : (binary target names wrap).encode (wrap d) = .ok (dataLiteral d)) :
    RoundTrips codecs target (wrap d) (dataLiteral d) :=
  .of_codec hv ht hf (dataLiteral_item h) he (binary_decode h.byteLength_eq)

theorem roundTrips_data (locale : String) (h : HasPlainKind d) :
    RoundTrips (builtin locale) .data (.data d) (dataLiteral d) :=
  .of_binary h rfl (by decide) (show find? (builtin locale) .data = some data from rfl) rfl

theorem roundTrips_picture (locale : String) (h : HasPlainKind d) :
    RoundTrips (builtin locale) .picture (.picture d) (dataLiteral d) :=
  .of_binary h rfl (by decide) (show find? (builtin locale) .picture = some picture from rfl) rfl

theorem roundTrips_typedData (locale : String) (h : HasPlainKind d) :
    RoundTrips (builtin locale) .typedData (.typedData d) (dataLiteral d) :=
  .of_binary h rfl (by decide) (show find? (builtin locale) .typedData = some typedData from rfl)
    rfl

end

/-! ## Texts -/

theorem text_decode (s : List Char) (application : Option String) :
    text.decode (answer (String.ofList s) application) =
      .ok (.text (String.ofList (Literal.unquote s))) := by
  simp only [text, answer, String.toList_ofList]

theorem roundTrips_text (locale : String) {s : String} (h : Item (Literal.quote s.toList)) :
    RoundTrips (builtin locale) .text (.text s) (String.ofList (Literal.quote s.toList)) := by
  refine .of_codec rfl (by decide) (show find? (builtin locale) .text = some text from rfl) ?_ rfl
    fun application => ?_
  · rw [String.toList_ofList]
    exact h
  · rw [text_decode, Literal.unquote_quote, String.ofList_toList]

/-! ## Files -/

theorem file_decode {text : String} (filled : isMissing (some text) = false)
    (application : Option String) :
    file.decode (answer text application) = .ok (.file (readFile (trimmed text))) := by
  simp only [file, answer, filled, Bool.false_eq_true, if_false, Reference.objectText,
    Option.getD_some]

/-! ## The missing value -/

theorem roundTrips_null (locale : String) {target : ValueType} (h : target ∈ nullableTypes) :
    RoundTrips (builtin locale) target .null missingValue := by
  have tight : Tight ('m' :: "issing valu".toList ++ ['e']) :=
    Tight.of_ends (by decide) (by decide) _
  have item : Item missingValue.toList := Item.of_inert tight (by decide)
  refine ⟨item, fun applications => by rw [encodeAs], fun applications application => ?_⟩
  simp only [nullableTypes, List.mem_cons, List.not_mem_nil, or_false] at h
  rcases h with rfl | rfl | rfl | rfl | rfl | rfl | rfl | rfl | rfl | rfl <;> rfl

end ScriptBridge.Codec
