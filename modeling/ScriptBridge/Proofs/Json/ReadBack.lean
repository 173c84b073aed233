import Mathlib.Data.List.TakeWhile
import Mathlib.Tactic.IntervalCases
import Mathlib.Tactic.SplitIfs
import ScriptBridge.Json.Parse
import ScriptBridge.Json.Print
/-!
Documents written in one line are read back.

Both passes of reading are followed over what was written. The characters of a document yield its
`tokens`, whatever comes behind them as long as it does not go on with a number or a word; from the
tokens the second pass has read the document, whatever is open around it. Any text can stand in a
string: each character is read back from its escape, and half of a surrogate pair is written where
a string holds no text. Only a number whose literal is no number would not come back.
-/
namespace ScriptBridge.Json

/-- Whether the numbers in a document are written as numbers are. -/
inductive Sound : Json → Prop
  | null : Sound .null
  | bool (b : Bool) : Sound (.bool b)
  | number {literal : String} (h : isNumber literal.toList = true) : Sound (.number literal)
  | string (text : Option String) : Sound (.string text)
  | array {items : List Json} (inside : ∀ item ∈ items, Sound item) : Sound (.array items)
  | object {members : List (Option String × Json)} (inside : ∀ member ∈ members, Sound member.2) :
      Sound (.object members)

mutual
/-- The tokens of a document. -/
def tokens : Json → List Token
  | array [] => [.openArray, .closeArray]
  | array (item :: items) => .openArray :: item.tokens ++ itemTokens items
  | object [] => [.openObject, .closeObject]
  | object ((key, value) :: members) =>
    .openObject :: .atom (.string key) :: .colon :: value.tokens ++ memberTokens members
  | leaf => [.atom leaf]

/-- The tokens of the further items of an array and of its end. -/
def itemTokens : List Json → List Token
  | [] => [.closeArray]
  | item :: items => .comma :: item.tokens ++ itemTokens items

/-- The tokens of the further members of an object and of its end. -/
def memberTokens : List (Option String × Json) → List Token
  | [] => [.closeObject]
  | (key, value) :: members =>
    .comma :: .atom (.string key) :: .colon :: value.tokens ++ memberTokens members
end

/-! ## Strings -/

section Characters

variable {c : Char} {rest : List Char} {reading next : Reading} {made : List Token}

theorem tokens?_step (h : step? c reading = some (made, next)) :
    tokens? reading (c :: rest) = (tokens? next rest).map (made ++ ·) := by
  rw [tokens?, h, Option.bind_some]

theorem tokens?_silent (h : step? c reading = some ([], next)) :
    tokens? reading (c :: rest) = tokens? next rest := by
  simp only [tokens?_step h, List.nil_append, Option.map_id']

end Characters

/-- Whether a text stands for tokens before a rest. -/
def Yields (text : List Char) (made : List Token) (rest : List Char) : Prop :=
  tokens? .between (text ++ rest) = (tokens? .between rest).map (made ++ ·)

section Texts

variable {c : Char} {text further : List Char} {token : Token} {made more : List Token}
  {rest : List Char}

theorem Yields.append (h : Yields text made (further ++ rest)) (h' : Yields further more rest) :
    Yields (text ++ further) (made ++ more) rest := by
  unfold Yields at h h' ⊢
  rw [List.append_assoc, h, h', Option.map_map]
  simp only [Function.comp_def, List.append_assoc]

theorem yields_mark (h : step? c .between = some ([token], .between)) : Yields [c] [token] rest :=
  tokens?_step h

theorem Yields.mark (h : step? c .between = some ([token], .between))
    (h' : Yields text made rest) : Yields (c :: text) (token :: made) rest :=
  (yields_mark h).append h'

end Texts

theorem digit?_lowerDigit : ∀ n, n < 16 → Hex.digit? (Hex.lowerDigit n) = some n := by decide

/-- An escape of four digits is read as the code unit that they write. -/
theorem tokens?_unit (content : Content) {a b c d : Char} {w x y z : Nat}
    (ha : Hex.digit? a = some w) (hb : Hex.digit? b = some x) (hc : Hex.digit? c = some y)
    (hd : Hex.digit? d = some z) (rest : List Char) :
    tokens? (.inString content) ('\\' :: 'u' :: a :: b :: c :: d :: rest) =
      tokens? (.inString <| content.pushUnit <| 16 * (16 * (16 * (16 * 0 + w) + x) + y) + z)
        rest := by
  have backslash : step? '\\' (.inString content) = some ([], .inEscape content) := rfl
  have marks : step? 'u' (.inEscape content) = some ([], .inUnit content 4 0) := rfl
  rw [tokens?_silent backslash, tokens?_silent marks, tokens?_silent (by rw [step?, ha]; rfl),
    tokens?_silent (by rw [step?, hb]; rfl), tokens?_silent (by rw [step?, hc]; rfl),
    tokens?_silent (by rw [step?, hd]; rfl)]

theorem tokens?_control (read : List Char) {c : Char} (control : c.toNat < 0x20)
    (rest : List Char) :
    tokens? (.inString ⟨some read, none⟩)
        ('\\' :: 'u' :: '0' :: '0' :: Hex.lowerDigit (c.toNat / 16) ::
          Hex.lowerDigit (c.toNat % 16) :: rest) =
      tokens? (.inString ⟨some (c :: read), none⟩) rest := by
  have zero : Hex.digit? '0' = some 0 := rfl
  have unit : 16 * (16 * (16 * (16 * 0 + 0) + 0) + c.toNat / 16) + c.toNat % 16 = c.toNat := by
    omega
  have pushed : (⟨some read, none⟩ : Content).pushUnit c.toNat = ⟨some (c :: read), none⟩ := by
    simp only [Content.pushUnit]
    rw [if_neg (by omega), if_neg (by omega), Option.map_some, Char.ofNat_toNat]
  rw [tokens?_unit _ zero zero (digit?_lowerDigit _ (by omega)) (digit?_lowerDigit _ (by omega)),
    unit, pushed]

/-- A character is read back from what stands for it in a string. -/
theorem tokens?_escapeChar (read : List Char) (c : Char) (rest : List Char) :
    tokens? (.inString ⟨some read, none⟩) (escapeChar c ++ rest) =
      tokens? (.inString ⟨some (c :: read), none⟩) rest := by
  unfold escapeChar
  split_ifs with quote backslash backspace tab line page back control
  any_goals
    subst c
    exact (tokens?_silent rfl).trans (tokens?_silent rfl)
  · exact tokens?_control read control rest
  · refine tokens?_silent ?_
    rw [step?, if_neg quote, if_neg backslash, if_neg control]
    rfl

theorem tokens?_escaped (read text rest : List Char) :
    tokens? (.inString ⟨some read, none⟩) (text.flatMap escapeChar ++ '"' :: rest) =
      (tokens? .between rest).map
        (.atom (.string (some (String.ofList (text.reverse ++ read).reverse))) :: ·) := by
  induction text generalizing read with
  | nil =>
    have closes : step? '"' (.inString ⟨some read, none⟩) =
        some ([.atom (.string (some (String.ofList read.reverse)))], .between) := rfl
    exact tokens?_step closes
  | cons c text ih =>
    rw [List.flatMap_cons, List.append_assoc, tokens?_escapeChar, ih, List.reverse_cons,
      List.append_assoc, List.singleton_append]

/-- A string is read back, whatever follows. -/
theorem yields_string (text : Option String) (rest : List Char) :
    Yields (renderString text) [.atom (.string text)] rest := by
  unfold Yields
  have opens : step? '"' .between = some ([], .inString ⟨some [], none⟩) := rfl
  cases text with
  | none =>
    have half : renderString none ++ rest =
        '"' :: '\\' :: 'u' :: 'd' :: '8' :: '0' :: '0' :: '"' :: rest := rfl
    have closes : step? '"' (.inString ⟨some [], some 0xD800⟩) =
        some ([.atom (.string none)], .between) := rfl
    have unit := tokens?_unit ⟨some [], none⟩ (a := 'd') (b := '8') (c := '0') (d := '0') rfl rfl
      rfl rfl ('"' :: rest)
    rw [half, tokens?_silent opens, unit]
    exact tokens?_step closes
  | some text =>
    have quoted : renderString (some text) ++ rest =
        '"' :: (text.toList.flatMap escapeChar ++ '"' :: rest) :=
      congrArg ('"' :: ·) (List.append_assoc ..)
    rw [quoted, tokens?_silent opens, tokens?_escaped, List.append_nil, List.reverse_reverse,
      String.ofList_toList]
    rfl

/-! ## Numbers and words -/

/-- Whether a number or word that stands before a text ends there. -/
def Ended (rest : List Char) : Prop :=
  ∀ c ∈ rest.head?, isNumberChar c = false ∧ isWordChar c = false

/-- A reading that goes on with the characters of a kind and then makes a token of them. -/
structure Run (reading : List Char → Reading) (belongs : Char → Bool)
    (token? : List Char → Option Token) : Prop where
  step : ∀ read c, step? c (reading read) =
    if belongs c then some ([], reading (c :: read))
    else (token? read.reverse).bind fun token =>
      (start? c).map fun (tokens, reading) => (token :: tokens, reading)
  finish : ∀ read, finish? (reading read) = (token? read.reverse).map fun token => [token]

theorem numberRun : Run .inNumber isNumberChar numberToken? := ⟨fun _ _ => rfl, fun _ => rfl⟩

theorem wordRun : Run .inWord isWordChar wordToken? := ⟨fun _ _ => rfl, fun _ => rfl⟩

/-- A run reads its characters to the last and yields their token. -/
theorem Run.tokens?_append {reading : List Char → Reading} {belongs : Char → Bool}
    {token? : List Char → Option Token} (run : Run reading belongs token?) {read s rest : List Char}
    {token : Token} (inside : ∀ c ∈ s, belongs c = true)
    (whole : token? (read.reverse ++ s) = some token)
    (ended : ∀ c ∈ rest.head?, belongs c = false) :
    tokens? (reading read) (s ++ rest) = (tokens? .between rest).map (token :: ·) := by
  induction s generalizing read with
  | nil =>
    rw [List.append_nil] at whole
    cases rest with
    | nil =>
      rw [List.nil_append, tokens?, run.finish, whole]
      rfl
    | cons c rest =>
      have other : belongs c = false := ended c rfl
      rw [List.nil_append, tokens?, tokens?, run.step, other, whole]
      cases h : start? c with
      | none => simp only [step?, h]; rfl
      | some made => simp [step?, h, Function.comp_def]
  | cons c s ih =>
    have goesOn : step? c (reading read) = some ([], reading (c :: read)) := by
      rw [run.step, inside c List.mem_cons_self]
      rfl
    rw [List.cons_append, tokens?_silent goesOn]
    refine ih (fun d hd => inside d (List.mem_cons_of_mem c hd)) ?_
    rw [List.reverse_cons, List.append_assoc, List.singleton_append, whole]

/-- Whether a character is a digit. -/
def isDigit (c : Char) : Bool := '0' ≤ c && c ≤ '9'

theorem isNumberChar_of_isDigit {c : Char} (h : isDigit c = true) : isNumberChar c = true := by
  unfold isDigit at h
  unfold isNumberChar
  rw [h]
  rfl

theorem isDigit_of_isDigits {s : List Char} (h : isDigits s = true) : ∀ c ∈ s, isDigit c = true :=
  List.all_eq_true.mp (Bool.and_eq_true_iff.mp h).2

theorem isNumberChar_of_digits {s : List Char}
    (behind : ∀ c ∈ s.dropWhile isDigit, isNumberChar c = true) :
    ∀ c ∈ s, isNumberChar c = true := by
  intro c hc
  rw [← List.takeWhile_append_dropWhile (p := isDigit) (l := s)] at hc
  rcases List.mem_append.mp hc with front | back
  · exact isNumberChar_of_isDigit (List.mem_takeWhile_imp front)
  · exact behind c back

theorem isNumberChar_of_isExponent {s : List Char} (h : isExponent s = true) :
    ∀ c ∈ s, isNumberChar c = true := by
  have digits {s : List Char} (h : isDigits s = true) : ∀ c ∈ s, isNumberChar c = true :=
    fun c hc => isNumberChar_of_isDigit (isDigit_of_isDigits h c hc)
  unfold isExponent at h
  split at h
  · exact fun c hc => absurd hc List.not_mem_nil
  · rename_i mark rest
    obtain ⟨marks, behind⟩ := Bool.and_eq_true_iff.mp h
    have first : isNumberChar mark = true := by
      rcases Bool.or_eq_true_iff.mp marks with e | e <;> rw [eq_of_beq e] <;> rfl
    split at behind
    · exact List.forall_mem_cons.mpr ⟨first, List.forall_mem_cons.mpr ⟨rfl, digits behind⟩⟩
    · exact List.forall_mem_cons.mpr ⟨first, List.forall_mem_cons.mpr ⟨rfl, digits behind⟩⟩
    · exact List.forall_mem_cons.mpr ⟨first, digits behind⟩

theorem isNumberChar_of_isTail {s : List Char} (h : isTail s = true) :
    ∀ c ∈ s, isNumberChar c = true := by
  unfold isTail at h
  split at h
  · have behind := isNumberChar_of_isExponent (Bool.and_eq_true_iff.mp h).2
    exact List.forall_mem_cons.mpr ⟨rfl, isNumberChar_of_digits behind⟩
  · exact isNumberChar_of_isExponent h

theorem isUnsigned_cons {s : List Char} (h : isUnsigned s = true) :
    ∃ c digits, s = c :: digits ∧ isDigit c = true ∧ ∀ c ∈ s, isNumberChar c = true := by
  unfold isUnsigned at h
  split at h
  · exact ⟨'0', _, rfl, rfl, List.forall_mem_cons.mpr ⟨rfl, isNumberChar_of_isTail h⟩⟩
  · obtain ⟨digits, behind⟩ := Bool.and_eq_true_iff.mp h
    have inside := isNumberChar_of_digits (isNumberChar_of_isTail behind)
    cases s with
    | nil => exact absurd digits (by decide)
    | cons c s =>
      refine ⟨c, s, rfl, ?_, inside⟩
      by_contra other
      have none : (c :: s).takeWhile isDigit = [] := List.takeWhile_cons_of_neg other
      exact absurd ((congrArg isDigits none).symm.trans digits) (by decide)

theorem starts_of_isDigit {c : Char} (h : isDigit c = true) :
    step? c .between = some ([], .inNumber [c]) := by
  obtain ⟨low, high⟩ := Bool.and_eq_true_iff.mp h
  have low : 48 ≤ c.toNat := of_decide_eq_true low
  have high : c.toNat ≤ 57 := of_decide_eq_true high
  rw [← Char.ofNat_toNat c]
  interval_cases c.toNat <;> rfl

theorem isNumber_cons {s : List Char} (h : isNumber s = true) :
    ∃ c digits, s = c :: digits ∧ step? c .between = some ([], .inNumber [c]) ∧
      ∀ c ∈ s, isNumberChar c = true := by
  unfold isNumber at h
  split at h
  · obtain ⟨-, -, -, -, inside⟩ := isUnsigned_cons h
    exact ⟨'-', _, rfl, rfl, List.forall_mem_cons.mpr ⟨rfl, inside⟩⟩
  · obtain ⟨c, digits, rfl, digit, inside⟩ := isUnsigned_cons h
    exact ⟨c, digits, rfl, starts_of_isDigit digit, inside⟩

/-- A number is read back before anything that cannot belong to it. -/
theorem yields_number {literal : String} (h : isNumber literal.toList = true) {rest : List Char}
    (ended : Ended rest) : Yields literal.toList [.atom (.number literal)] rest := by
  obtain ⟨c, digits, spelled, starts, inside⟩ := isNumber_cons h
  rw [spelled] at inside
  have whole : numberToken? ([c].reverse ++ digits) = some (.atom (.number literal)) := by
    rw [List.reverse_singleton, List.singleton_append, ← spelled, numberToken?, if_pos h,
      String.ofList_toList]
  rw [Yields, spelled, List.cons_append, tokens?_silent starts]
  exact numberRun.tokens?_append (fun d hd => inside d (List.mem_cons_of_mem c hd)) whole
    fun d hd => (ended d hd).1

theorem yields_word {c : Char} {letters rest : List Char} {token : Token}
    (starts : step? c .between = some ([], .inWord [c]))
    (inside : ∀ d ∈ letters, isWordChar d = true)
    (whole : wordToken? (c :: letters) = some token) (ended : Ended rest) :
    Yields (c :: letters) [token] rest := by
  rw [Yields, List.cons_append, tokens?_silent starts]
  exact wordRun.tokens?_append inside whole fun d hd => (ended d hd).2

/-! ## The tokens of a text -/

/-- Whether a document yields its tokens before anything that it cannot run into. -/
def Lexes (j : Json) : Prop := ∀ rest, Ended rest → Yields j.renderChars j.tokens rest

theorem renderItems_ended (items : List Json) (rest : List Char) :
    Ended (renderItems items ++ rest) := by
  cases items <;> (rintro c ⟨⟩; decide)

theorem renderMembers_ended (members : List (Option String × Json)) (rest : List Char) :
    Ended (renderMembers members ++ rest) := by
  rcases members with _ | ⟨⟨key, value⟩, members⟩ <;> (rintro c ⟨⟩; decide)

theorem yields_items {items : List Json} (inside : ∀ item ∈ items, item.Lexes) (rest : List Char) :
    Yields (renderItems items) (itemTokens items) rest := by
  induction items with
  | nil => exact yields_mark rfl
  | cons item items ih =>
    obtain ⟨first, others⟩ := List.forall_mem_cons.mp inside
    exact (Yields.mark rfl (first _ (renderItems_ended items rest))).append (ih others)

theorem yields_members {members : List (Option String × Json)}
    (inside : ∀ member ∈ members, member.2.Lexes) (rest : List Char) :
    Yields (renderMembers members) (memberTokens members) rest := by
  induction members with
  | nil => exact yields_mark rfl
  | cons member members ih =>
    obtain ⟨first, others⟩ := List.forall_mem_cons.mp inside
    have value := Yields.mark (c := ':') rfl (first _ (renderMembers_ended members rest))
    exact (Yields.mark rfl ((yields_string member.1 _).append value)).append (ih others)

/-- The text of a document yields its tokens. -/
theorem Sound.lexes {j : Json} (sound : j.Sound) : j.Lexes := by
  induction sound with
  | null =>
    have inside : ∀ d ∈ ['u', 'l', 'l'], isWordChar d = true := List.all_eq_true.mp rfl
    exact fun rest => yields_word rfl inside rfl
  | bool b =>
    cases b with
    | true =>
      have inside : ∀ d ∈ ['r', 'u', 'e'], isWordChar d = true := List.all_eq_true.mp rfl
      exact fun rest => yields_word rfl inside rfl
    | false =>
      have inside : ∀ d ∈ ['a', 'l', 's', 'e'], isWordChar d = true := List.all_eq_true.mp rfl
      exact fun rest => yields_word rfl inside rfl
  | number h => exact fun rest => yields_number h
  | string text => exact fun rest _ => yields_string text rest
  | @array items _ ih =>
    intro rest _
    cases items with
    | nil => exact Yields.mark rfl (yields_mark rfl)
    | cons item items =>
      obtain ⟨first, others⟩ := List.forall_mem_cons.mp ih
      exact (Yields.mark rfl (first _ (renderItems_ended items rest))).append
        (yields_items others rest)
  | @object members _ ih =>
    intro rest _
    rcases members with _ | ⟨⟨key, value⟩, members⟩
    · exact Yields.mark rfl (yields_mark rfl)
    · obtain ⟨first, others⟩ := List.forall_mem_cons.mp ih
      have value := Yields.mark (c := ':') rfl (first _ (renderMembers_ended members rest))
      exact (Yields.mark rfl ((yields_string key _).append value)).append
        (yields_members others rest)

/-! ## The document of tokens -/

/-- Whether a document is read from its tokens, whatever is open and whatever follows. -/
def Parses (j : Json) : Prop :=
  ∀ frames rest, document? .value frames (j.tokens ++ rest) = document? (.after j) frames rest

/-- The first item of an array is read as every other item. -/
theorem document?_firstItem (j : Json) (frames : List Frame) (rest : List Token) :
    document? .firstItem frames (j.tokens ++ rest) =
      document? .value (.array [] :: frames) (j.tokens ++ rest) := by
  match j with
  | .array [] | .array (_ :: _) | .object [] | .object ((_, _) :: _) => rfl
  | .null | .bool _ | .number _ | .string _ => rfl

theorem document?_items {items : List Json} (inside : ∀ item ∈ items, item.Parses) (last : Json)
    (read : List Json) (frames : List Frame) (rest : List Token) :
    document? (.after last) (.array read :: frames) (itemTokens items ++ rest) =
      document? (.after (.array ((last :: read).reverse ++ items))) frames rest := by
  induction items generalizing last read with
  | nil => rw [List.append_nil]; rfl
  | cons item items ih =>
    obtain ⟨first, others⟩ := List.forall_mem_cons.mp inside
    have comma : document? (.after last) (.array read :: frames)
          (itemTokens (item :: items) ++ rest) =
        document? .value (.array (last :: read) :: frames)
          (item.tokens ++ (itemTokens items ++ rest)) :=
      congrArg (document? .value (.array (last :: read) :: frames)) (List.append_assoc ..)
    rw [comma, first, ih others, List.reverse_cons (a := item), List.append_assoc,
      List.singleton_append]

theorem document?_members {members : List (Option String × Json)}
    (inside : ∀ member ∈ members, member.2.Parses) (last : Json) (key : Option String)
    (read : List (Option String × Json)) (frames : List Frame) (rest : List Token) :
    document? (.after last) (.member read key :: frames) (memberTokens members ++ rest) =
      document? (.after (.object (((key, last) :: read).reverse ++ members))) frames rest := by
  induction members generalizing last key read with
  | nil => rw [List.append_nil]; rfl
  | cons member members ih =>
    obtain ⟨first, others⟩ := List.forall_mem_cons.mp inside
    have comma : document? (.after last) (.member read key :: frames)
          (memberTokens (member :: members) ++ rest) =
        document? .value (.member ((key, last) :: read) member.1 :: frames)
          (member.2.tokens ++ (memberTokens members ++ rest)) :=
      congrArg (document? .value (.member ((key, last) :: read) member.1 :: frames))
        (List.append_assoc ..)
    rw [comma, first, ih others, List.reverse_cons (a := member), List.append_assoc,
      List.singleton_append]

/-- The tokens of a document are read as the document. -/
theorem Sound.parses {j : Json} (sound : j.Sound) : j.Parses := by
  induction sound with
  | null | bool | number | string => exact fun _ _ => rfl
  | @array items _ ih =>
    intro frames rest
    cases items with
    | nil => rfl
    | cons item items =>
      obtain ⟨first, others⟩ := List.forall_mem_cons.mp ih
      have opens : document? .value frames ((Json.array (item :: items)).tokens ++ rest) =
          document? .firstItem frames (item.tokens ++ (itemTokens items ++ rest)) :=
        congrArg (document? .firstItem frames) (List.append_assoc ..)
      rw [opens, document?_firstItem, first, document?_items others]
      rfl
  | @object members _ ih =>
    intro frames rest
    rcases members with _ | ⟨⟨key, value⟩, members⟩
    · rfl
    · obtain ⟨first, others⟩ := List.forall_mem_cons.mp ih
      have opens : document? .value frames
            ((Json.object ((key, value) :: members)).tokens ++ rest) =
          document? .value (.member [] key :: frames)
            (value.tokens ++ (memberTokens members ++ rest)) :=
        congrArg (document? .value (.member [] key :: frames)) (List.append_assoc ..)
      rw [opens, first, document?_members others]
      rfl

/-- Documents written in one line are read back. -/
theorem parse?_render {j : Json} (sound : j.Sound) : parse? j.render = some j := by
  have lexed := sound.lexes [] (fun _ h => absurd h (by simp))
  have parsed := sound.parses [] []
  rw [Yields, List.append_nil] at lexed
  rw [List.append_nil] at parsed
  rw [parse?, render, String.toList_ofList, lexed]
  simp [tokens?, finish?, parsed, document?]

end ScriptBridge.Json
