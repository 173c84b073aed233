import ScriptBridge.Proofs.Codec.Payloads
/-!
Which texts are data literals.

A data literal ought to be four characters and pairs of hexadecimal digits inside the marks, and to
be refused otherwise (`ReadsExactly`). The reader of pairs takes a plus sign for the first digit of
a pair though, as a zero. So the law is kept exactly if there is no plus sign behind the four
characters, or if what stands there is not to be read anyway (`decode_dataLiteral_iff`).
-/
namespace ScriptBridge

/-! ## Pairs of digits -/

namespace Hex

/-- Digits two by two and the bytes they write, where `first?` says what the first of two counts. -/
inductive Pairs (first? : Char → Option Nat) : List Char → List UInt8 → Prop
  | nil : Pairs first? [] []
  | cons {high low : Char} {h l : Nat} {byte : UInt8} {digits : List Char} {bytes : List UInt8}
      (first : first? high = some h) (second : digit? low = some l)
      (value : byte.toNat = 16 * h + l) (rest : Pairs first? digits bytes) :
      Pairs first? (high :: low :: digits) (byte :: bytes)

/-- What the first of two characters counts for a reader that is lenient about signs. -/
def leading? (c : Char) : Option Nat := if c = '+' then some 0 else digit? c

theorem lt_of_digit? {c : Char} {v : Nat} (h : digit? c = some v) : v < 16 := by
  have range {low high : Char} (inside : low ≤ c ∧ c ≤ high) :
      low.toNat ≤ c.toNat ∧ c.toNat ≤ high.toNat := inside
  unfold digit? at h
  split at h
  · next decimal =>
    have : '0'.toNat ≤ c.toNat ∧ c.toNat ≤ '9'.toNat := range decimal
    cases h
    simp only [Char.reduceToNat] at *
    omega
  · split at h
    · next lower =>
      have : 'a'.toNat ≤ c.toNat ∧ c.toNat ≤ 'f'.toNat := range lower
      cases h
      simp only [Char.reduceToNat] at *
      omega
    · split at h
      · next upper =>
        have : 'A'.toNat ≤ c.toNat ∧ c.toNat ≤ 'F'.toNat := range upper
        cases h
        simp only [Char.reduceToNat] at *
        omega
      · cases h

theorem lt_of_leading? {c : Char} {v : Nat} (h : leading? c = some v) : v < 16 := by
  unfold leading? at h
  split at h
  · cases h
    decide
  · exact lt_of_digit? h

theorem ne_plus_of_digit? {c : Char} {v : Nat} (h : digit? c = some v) : c ≠ '+' := by
  rintro rfl
  rw [show digit? '+' = none from by decide] at h
  cases h

theorem leading?_of_digit? {c : Char} {v : Nat} (h : digit? c = some v) : leading? c = some v := by
  rw [leading?, if_neg (ne_plus_of_digit? h), h]

theorem pair?_eq_some_iff {high low : Char} {byte : UInt8} :
    pair? high low = some byte ↔
      ∃ h l, leading? high = some h ∧ digit? low = some l ∧ byte.toNat = 16 * h + l := by
  have counted (n : Nat) (small : n < 256) : UInt8.ofNat n = byte ↔ byte.toNat = n := by
    rw [← UInt8.toNat_inj, Utf8.toNat_ofNat_of_lt small, eq_comm]
  have sum : pair? high low =
      (leading? high).bind fun h => (digit? low).map fun l => .ofNat (16 * h + l) := by
    unfold pair? leading?
    split
    · simp
    · rfl
  simp only [sum, Option.bind_eq_some_iff, Option.map_eq_some_iff, exists_and_left]
  refine exists_congr fun h => and_congr_right fun first => exists_congr fun l =>
    and_congr_right fun second => counted _ ?_
  have := lt_of_leading? first
  have := lt_of_digit? second
  omega

theorem bytes?_eq_some_iff {digits : List Char} {bytes : List UInt8} :
    bytes? digits = some bytes ↔ Pairs leading? digits bytes := by
  constructor
  · intro read
    fun_induction bytes? digits generalizing bytes with
    | case1 =>
      cases read
      exact .nil
    | case2 => cases read
    | case3 high low rest ih =>
      obtain ⟨byte, pair, read⟩ := Option.bind_eq_some_iff.mp read
      obtain ⟨bytes, others, rfl⟩ := Option.map_eq_some_iff.mp read
      obtain ⟨h, l, first, second, value⟩ := pair?_eq_some_iff.mp pair
      exact .cons first second value (ih others)
  · intro pairs
    induction pairs with
    | nil => rfl
    | cons first second value _ ih =>
      rw [bytes?, pair?_eq_some_iff.mpr ⟨_, _, first, second, value⟩, ih]
      rfl

/-- Pairs of digits are the pairs that a lenient reader accepts and that have no sign in them. -/
theorem pairs_digit?_iff {digits : List Char} {bytes : List UInt8} :
    Pairs digit? digits bytes ↔ Pairs leading? digits bytes ∧ '+' ∉ digits := by
  constructor
  · intro pairs
    induction pairs with
    | nil => exact ⟨.nil, List.not_mem_nil⟩
    | cons first second value _ ih =>
      refine ⟨.cons (leading?_of_digit? first) second value ih.1, ?_⟩
      simp only [List.mem_cons, not_or]
      exact ⟨(ne_plus_of_digit? first).symm, (ne_plus_of_digit? second).symm, ih.2⟩
  · rintro ⟨pairs, unsigned⟩
    induction pairs with
    | nil => exact .nil
    | cons first second value _ ih =>
      simp only [List.mem_cons, not_or] at unsigned
      rw [leading?, if_neg (Ne.symm unsigned.1)] at first
      exact .cons first second value (ih unsigned.2.2)

end Hex

namespace Codec

open Text

/-! ## Literals -/

/-- The law of data literals: four characters and pairs of digits are read as the kind and the bytes
they write, and everything else is refused with the text. -/
structure ReadsExactly (target : ValueType) (wrap : Data → Value) (reference : Reference)
    (body : List Char) (outcome : Except ScriptError Value) : Prop where
  accepted : ∀ kind digits bytes, body = kind ++ digits → kind.length = 4 →
    Hex.Pairs Hex.digit? digits bytes → outcome = .ok (wrap ⟨String.ofList kind, bytes⟩)
  refused : (∀ kind digits bytes, body = kind ++ digits → kind.length = 4 →
      ¬Hex.Pairs Hex.digit? digits bytes) →
    outcome = .error (.decode target reference (.data reference.objectText))

section
variable {text : String} {body : List Char}
  (enclosed : trim text.toList = dataOpening ++ body ++ ['»'])
include enclosed

theorem isMissing_of_enclosed : isMissing (some text) = false := by
  have opened : (trimmed text).toList = dataOpening ++ body ++ ['»'] := by
    rw [trimmed, String.toList_ofList, enclosed]
  have tight : Tight (trimmed text).toList := by
    rw [opened]
    exact Tight.of_ends (by decide) (by decide) _
  rw [← isMissing_trimmed]
  refine isMissing_eq_false tight ?_
  rw [opened, show dataOpening = '«' :: dataOpening.tail from by decide]
  simp

/-- What is read of a literal of ASCII characters is the first four of them and the pairs behind
them. -/
theorem readData?_enclosed_iff (ascii : ∀ c ∈ body, Literal.isPlain c = true) {d : Data} :
    readData? text.toList = some d ↔
      ∃ kind digits bytes, body = kind ++ digits ∧ kind.length = 4 ∧
        Hex.Pairs Hex.leading? digits bytes ∧ d = ⟨String.ofList kind, bytes⟩ := by
  rw [readData?, enclosed, between?_append, Option.bind_some, Option.bind_eq_some_iff]
  simp only [Prod.exists, firstBytes?_eq_kind_iff, Option.map_eq_some_iff, Hex.bytes?_eq_some_iff]
  constructor
  · rintro ⟨kind, digits, ⟨rfl, four⟩, bytes, pairs, rfl⟩
    rw [(byteLength_eq_length_iff kind).mpr fun c inside => ascii c (List.mem_append_left _ inside)]
      at four
    exact ⟨kind, digits, bytes, rfl, four, pairs, rfl⟩
  · rintro ⟨kind, digits, bytes, rfl, four, pairs, rfl⟩
    rw [← (byteLength_eq_length_iff kind).mpr fun c inside =>
      ascii c (List.mem_append_left _ inside)] at four
    exact ⟨kind, digits, ⟨rfl, four⟩, bytes, pairs, rfl⟩

section
variable {target : ValueType} {wrap : Data → Value} (h : Flavour target wrap) (locale : String)
  (applications : Registry) (application : Option String)
include h

/-- A literal is refused if nothing is read of it. -/
theorem decodeAs_enclosed :
    decodeAs (builtin locale) applications target (answer text application) =
      match readData? text.toList with
      | some d => .ok (wrap d)
      | none => .error (.decode target (answer text application) (.data text)) := by
  obtain ⟨names, found⟩ := h.exists_codec locale
  unfold decodeAs
  simp only [found, decodeWith, binary, answer, isMissing_of_enclosed enclosed, Bool.false_eq_true,
    if_false, Reference.objectText, Option.getD_some]
  cases readData? text.toList <;> rfl

variable (ascii : ∀ c ∈ body, Literal.isPlain c = true)
include ascii

/-- The law is broken by a plus sign in pairs that are read, and by nothing else. -/
theorem readsExactly_enclosed_iff :
    ReadsExactly target wrap (answer text application) body
        (decodeAs (builtin locale) applications target (answer text application)) ↔
      ('+' ∈ body.drop 4 → ∀ bytes, ¬Hex.Pairs Hex.leading? (body.drop 4) bytes) := by
  have read (d : Data) := readData?_enclosed_iff enclosed ascii (d := d)
  rw [decodeAs_enclosed enclosed h]
  constructor
  · intro law sign bytes pairs
    have long : 0 < (body.drop 4).length := List.length_pos_of_mem sign
    have four : (body.take 4).length = 4 := by
      rw [List.length_drop] at long
      rw [List.length_take]
      omega
    have found := (read _).mpr
      ⟨body.take 4, body.drop 4, bytes, (List.take_append_drop 4 body).symm, four, pairs, rfl⟩
    have refused := law.refused fun kind digits _ cut four strict => by
      rw [cut, List.drop_left' four] at sign
      exact (Hex.pairs_digit?_iff.mp strict).2 sign
    rw [found] at refused
    cases refused
  · intro unsigned
    refine ⟨fun kind digits bytes cut four strict => ?_, fun ungrammatical => ?_⟩
    · rw [(read _).mpr ⟨kind, digits, bytes, cut, four, (Hex.pairs_digit?_iff.mp strict).1, rfl⟩]
    · cases outcome : readData? text.toList with
      | none => rfl
      | some d =>
        obtain ⟨kind, digits, bytes, cut, four, pairs, -⟩ := (read d).mp outcome
        rw [cut, List.drop_left' four] at unsigned
        have strict := Hex.pairs_digit?_iff.mpr ⟨pairs, fun sign => unsigned sign bytes pairs⟩
        exact absurd strict (ungrammatical kind digits bytes cut four)

/-- A text inside the marks of a data literal is read as four characters and pairs behind them, in
each of which a plus sign may stand for the first digit; whatever is not of this form is refused.
The law is kept exactly if there is no plus sign behind the four characters, or no such pairs. -/
theorem decode_dataLiteral_iff :
    (ReadsExactly target wrap (answer text application) body
        (decodeAs (builtin locale) applications target (answer text application)) ↔
      ('+' ∈ body.drop 4 → ∀ bytes, ¬Hex.Pairs Hex.leading? (body.drop 4) bytes)) ∧
    (∀ value, decodeAs (builtin locale) applications target (answer text application) =
        .ok value ↔
      ∃ kind digits bytes, body = kind ++ digits ∧ kind.length = 4 ∧
        Hex.Pairs Hex.leading? digits bytes ∧ value = wrap ⟨String.ofList kind, bytes⟩) ∧
    ((∃ value, decodeAs (builtin locale) applications target (answer text application) =
        .ok value) ∨
      decodeAs (builtin locale) applications target (answer text application) =
        .error (.decode target (answer text application) (.data text))) := by
  refine ⟨readsExactly_enclosed_iff enclosed h locale applications application ascii, ?_⟩
  have read (d : Data) := readData?_enclosed_iff enclosed ascii (d := d)
  rw [decodeAs_enclosed enclosed h]
  cases outcome : readData? text.toList with
  | none =>
    refine ⟨fun value => iff_of_false (fun same => by cases same) ?_, .inr rfl⟩
    rintro ⟨kind, digits, bytes, cut, four, pairs, -⟩
    have found := (read _).mpr ⟨kind, digits, bytes, cut, four, pairs, rfl⟩
    rw [outcome] at found
    cases found
  | some d =>
    refine ⟨fun value => ⟨fun same => ?_, ?_⟩, .inl ⟨_, rfl⟩⟩
    · obtain ⟨kind, digits, bytes, cut, four, pairs, rfl⟩ := (read d).mp outcome
      cases same
      exact ⟨kind, digits, bytes, cut, four, pairs, rfl⟩
    · rintro ⟨kind, digits, bytes, cut, four, pairs, rfl⟩
      have found := (read _).mpr ⟨kind, digits, bytes, cut, four, pairs, rfl⟩
      rw [outcome] at found
      rw [Option.some.inj found]

end

end

/-- Digits of either case behind four characters are read, with white space around the literal; a
sign in front of a digit is read as well, against the law. -/
theorem decode_dataLiteral_signed :
    trim " «data PICTFf0a» \n".toList = dataOpening ++ "PICTFf0a".toList ++ ['»'] ∧
      trim "«data rdat+f»".toList = dataOpening ++ "rdat+f".toList ++ ['»'] ∧
      (∀ c ∈ "PICTFf0a".toList, Literal.isPlain c = true) ∧
      (∀ c ∈ "rdat+f".toList, Literal.isPlain c = true) ∧
      Flavour .picture .picture ∧ Flavour .data .data ∧
      ReadsExactly .picture .picture (answer " «data PICTFf0a» \n" none) "PICTFf0a".toList
        (decodeAs (builtin "en_US") {} .picture (answer " «data PICTFf0a» \n" none)) ∧
      decodeAs (builtin "en_US") {} .picture (answer " «data PICTFf0a» \n" none) =
        .ok (.picture ⟨"PICT", [255, 10]⟩) ∧
      decodeAs (builtin "en_US") {} .data (answer "«data rdat+f»" none) =
        .ok (.data ⟨"rdat", [15]⟩) ∧
      ¬ReadsExactly .data .data (answer "«data rdat+f»" none) "rdat+f".toList
        (decodeAs (builtin "en_US") {} .data (answer "«data rdat+f»" none)) := by
  have tidy : trim " «data PICTFf0a» \n".toList = dataOpening ++ "PICTFf0a".toList ++ ['»'] := by
    decide
  have signed : trim "«data rdat+f»".toList = dataOpening ++ "rdat+f".toList ++ ['»'] := by decide
  have plain : ∀ c ∈ "PICTFf0a".toList, Literal.isPlain c = true := List.all_eq_true.mp (by decide)
  have plain' : ∀ c ∈ "rdat+f".toList, Literal.isPlain c = true := List.all_eq_true.mp (by decide)
  obtain ⟨lawful, read, -⟩ := decode_dataLiteral_iff tidy .picture "en_US" {} none plain
  obtain ⟨unlawful, read', -⟩ := decode_dataLiteral_iff signed .data "en_US" {} none plain'
  have digits : Hex.Pairs Hex.leading? "Ff0a".toList [255, 10] :=
    Hex.bytes?_eq_some_iff.mp (by decide)
  have sign : Hex.Pairs Hex.leading? "+f".toList [15] := Hex.bytes?_eq_some_iff.mp (by decide)
  refine ⟨tidy, signed, plain, plain', .picture, .data, lawful.mpr ?_, (read _).mpr ?_,
    (read' _).mpr ?_, fun law => ?_⟩
  · exact fun found => absurd found (by decide)
  · exact ⟨"PICT".toList, "Ff0a".toList, [255, 10], rfl, rfl, digits, rfl⟩
  · exact ⟨"rdat".toList, "+f".toList, [15], rfl, rfl, sign, rfl⟩
  · exact unlawful.mp law (by decide) [15] sign

end Codec
end ScriptBridge
