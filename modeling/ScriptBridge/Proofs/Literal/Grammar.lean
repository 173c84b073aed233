import ScriptBridge.Proofs.Literal.Parts
/-!
Literals as a reader of scripts sees them.

A reader of scripts goes by characters: a double quote opens a string literal, inside of it a
backslash takes the next character along, and the next quote that is not taken along closes it
(`lex`). Whatever such a reader does not find inside of a string literal is code.

`Parenthesised` is the grammar of literals: parts between parentheses, with ` & ` between
neighbours, which take turns and start with a string literal. It says of each derivation which text
the parts stand for, by the escapes and by the UTF-8 bytes of the core library, and nothing in it is
taken from the functions that read literals.

What the grammar derives is read as its parts, whatever follows (`lex_concatenation`), and the
literal of a text is derived for that text (`concatenation_parts`). So a text stays inside of its
literal (`quote_stays_literal`).
-/
namespace ScriptBridge.Literal

/-! ## The grammar -/

/-- A body of a string literal, with the text that it stands for. -/
inductive Body : (written text : List Char) → Prop
  | nil : Body [] []
  | plain {c : Char} {written text : List Char} (ascii : c.toNat < 128) (h : c ≠ '"' ∧ c ≠ '\\')
    (rest : Body written text) : Body (c :: written) (c :: text)
  | escaped {c : Char} {written text : List Char} (h : c = '"' ∨ c = '\\')
    (rest : Body written text) : Body ('\\' :: c :: written) (c :: text)

/-- The digits of a data literal, with the text that they stand for. -/
structure Digits (written text : List Char) : Prop where
  filled : written ≠ []
  pairs : written.length % 2 = 0
  lower : ∀ c ∈ written, ('0' ≤ c ∧ c ≤ '9') ∨ ('a' ≤ c ∧ c ≤ 'f')
  spelled : Hex.bytes? written = some (text.flatMap String.utf8EncodeChar)

/-- A part of a concatenation, by what is written in it. -/
inductive Token where
  | string (body : List Char)
  | data (digits : List Char)

namespace Token

/-- Whether a part is a data literal. -/
def isData : Token → Bool
  | string _ => false
  | data _ => true

/-- What stands before the digits of a data literal. -/
def opening : List Char := "(«data utf8".toList

/-- What stands after them. -/
def closing : List Char := "» as Unicode text)".toList

/-- A part as script text. -/
def written : Token → List Char
  | string body => '"' :: body ++ ['"']
  | data digits => opening ++ digits ++ closing

/-- The text that a part stands for, if it is well formed. -/
inductive Means : Token → List Char → Prop
  | string {body text : List Char} (h : Body body text) : Means (.string body) text
  | data {digits text : List Char} (h : Digits digits text) : Means (.data digits) text

end Token

/-- Parts that take turns, as script text and with the text that they stand for. -/
inductive Concatenation : (tokens : List Token) → (written text : List Char) → Prop
  | last {token : Token} {text : List Char} (h : token.Means text) :
    Concatenation [token] token.written text
  | next {token other : Token} {others : List Token} {text written rest : List Char}
    (h : token.Means text) (turns : token.isData = !other.isData)
    (more : Concatenation (other :: others) written rest) :
    Concatenation (token :: other :: others) (token.written ++ (" & ".toList ++ written))
      (text ++ rest)

/-- A concatenation in parentheses that starts with a string literal. -/
inductive Parenthesised : (tokens : List Token) → (written text : List Char) → Prop
  | parentheses {body : List Char} {tokens : List Token} {written text : List Char}
    (h : Concatenation (.string body :: tokens) written text) :
    Parenthesised (.string body :: tokens) ('(' :: written ++ [')']) text

/-! ## The reader of scripts -/

/-- Where the reader is: in code, or in a string literal after so much of its body, the last
character of which may be a backslash that takes the next one along. -/
inductive Place where
  | code
  | literal (body : List Char) (escaping : Bool)

/-- What the reader finds. -/
inductive Lexeme where
  | code (c : Char)
  | literal (body : List Char)
  deriving DecidableEq

/-- What the reader finds in a script, unless a string literal is not closed in it. -/
def lex : Place → List Char → Option (List Lexeme)
  | .code, [] => some []
  | .literal _ _, [] => none
  | .code, c :: rest =>
    if c = '"' then lex (.literal [] false) rest else (lex .code rest).map (.code c :: ·)
  | .literal body true, c :: rest => lex (.literal (body ++ [c]) false) rest
  | .literal body false, c :: rest =>
    if c = '"' then (lex .code rest).map (.literal body :: ·)
    else lex (.literal (body ++ [c]) (c = '\\')) rest

/-- A text of which all is code. -/
def code (s : List Char) : List Lexeme := s.map .code

/-- A part as it should be read. -/
def Token.lexemes : Token → List Lexeme
  | string body => [.literal body]
  | data digits => code (Token.data digits).written

/-- Parts as they should be read, with ` & ` between neighbours. -/
def separated (tokens : List Token) : List Lexeme :=
  (code " & ".toList).intercalate (tokens.map Token.lexemes)

/-! ## Reading what the grammar derives -/

theorem lex_code {s : List Char} (h : '"' ∉ s) (rest : List Char) :
    lex .code (s ++ rest) = (lex .code rest).map (code s ++ ·) := by
  induction s with
  | nil => simp [code]
  | cons c s ih =>
    rw [List.mem_cons, not_or] at h
    rw [List.cons_append, lex, if_neg (Ne.symm h.1), ih h.2, Option.map_map]
    rfl

/-- The quote after a body is the first that is not taken along. -/
theorem lex_body {written text : List Char} (h : Body written text) (before rest : List Char) :
    lex (.literal before false) (written ++ '"' :: rest) =
      (lex .code rest).map (.literal (before ++ written) :: ·) := by
  induction h generalizing before with
  | nil => rw [List.nil_append, List.append_nil, lex, if_pos rfl]
  | @plain c written text ascii h body ih =>
    rw [List.cons_append, lex, if_neg h.1, decide_eq_false h.2, ih, List.append_assoc,
      List.singleton_append]
  | @escaped c written text h body ih =>
    have taken : lex (.literal before false) ('\\' :: c :: (written ++ '"' :: rest)) =
        lex (.literal (before ++ ['\\'] ++ [c]) false) (written ++ '"' :: rest) := by
      rw [lex, if_neg (by decide), decide_eq_true rfl, lex]
    rw [List.cons_append, List.cons_append, taken, ih]
    simp

theorem Digits.no_quote {written text : List Char} (h : Digits written text) : '"' ∉ written :=
  fun hm => absurd (h.lower _ hm) (by decide)

theorem lex_token {token : Token} {text : List Char} (h : token.Means text) (rest : List Char) :
    lex .code (token.written ++ rest) = (lex .code rest).map (token.lexemes ++ ·) := by
  cases h with
  | @string body text h =>
    have opened : lex .code ('"' :: (body ++ '"' :: rest)) =
        lex (.literal [] false) (body ++ '"' :: rest) := by rw [lex, if_pos rfl]
    have split : (Token.string body).written ++ rest = '"' :: (body ++ '"' :: rest) := by
      simp [Token.written]
    rw [split, opened, lex_body h]
    rfl
  | @data digits text h =>
    have none : '"' ∉ (Token.data digits).written := by
      simp only [Token.written, List.mem_append, not_or]
      exact ⟨⟨by decide, h.no_quote⟩, by decide⟩
    exact lex_code none rest

theorem lex_concatenation {tokens : List Token} {written text : List Char}
    (h : Concatenation tokens written text) (rest : List Char) :
    lex .code (written ++ rest) = (lex .code rest).map (separated tokens ++ ·) := by
  induction h with
  | @last token text h =>
    rw [lex_token h, separated, List.map_singleton, List.intercalate_singleton]
  | @next token other others text written rest' h turns more ih =>
    have all : separated (token :: other :: others) =
        token.lexemes ++ (code " & ".toList ++ separated (other :: others)) := by
      simp [separated, List.intercalate_cons_cons]
    rw [List.append_assoc, List.append_assoc, lex_token h, lex_code (by decide), ih, all,
      Option.map_map, Option.map_map]
    congr 1
    funext found
    simp

/-! ## Deriving a literal -/

theorem Body.of_escape {run : List Char} (h : ∀ c ∈ run, isPlain c = true) :
    Body (escape run) run := by
  induction run with
  | nil => exact .nil
  | cons c run ih =>
    rw [List.forall_mem_cons] at h
    have rest := ih h.2
    rw [show escape (c :: run) = escapeChar c ++ escape run from rfl]
    by_cases hc : c = '"' ∨ c = '\\'
    · rw [escapeChar, if_pos hc]
      exact .escaped hc rest
    · rw [escapeChar, if_neg hc]
      rw [not_or] at hc
      have ascii : c.toNat < 128 := Nat.lt_succ_of_le (of_decide_eq_true h.1)
      exact .plain ascii hc rest

theorem length_lower (bytes : List UInt8) : (Hex.lower bytes).length = 2 * bytes.length := by
  induction bytes with
  | nil => rfl
  | cons b bytes ih =>
    rw [Hex.lower] at ih
    rw [Hex.lower, List.flatMap_cons, List.length_append, ih]
    simp only [List.length_cons, List.length_nil]
    omega

theorem Digits.of_run {run : List Char} (h : run ≠ []) :
    Digits (Hex.lower (Utf8.encode run)) run where
  filled := by
    obtain ⟨c, rest, rfl⟩ := List.exists_cons_of_ne_nil h
    have bytes := congrArg List.length (lower_cons c rest)
    have some : 1 ≤ (Utf8.encodeChar c).length := by
      rw [Utf8.encodeChar_eq, String.length_utf8EncodeChar]
      exact c.utf8Size_pos
    rw [List.length_append, length_lower, length_lower, length_lower] at bytes
    intro none
    have length := congrArg List.length none
    rw [length_lower, List.length_nil] at length
    omega
  pairs := by rw [length_lower, Nat.mul_mod_right]
  lower := Hex.forall_mem_lower (by decide) _
  spelled := by
    rw [Hex.bytes?_lower, Utf8.encode, funext Utf8.encodeChar_eq]

namespace Part

/-- A part, by what is written in it. -/
def token : Part → Token
  | string run => .string (escape run)
  | data run => .data (Hex.lower (Utf8.encode run))

/-- Whether a part is a run of its kind: characters that may stand in a string literal, or at least
one character. -/
def IsRun : Part → Prop
  | string run => ∀ c ∈ run, isPlain c = true
  | data run => run ≠ []

theorem means_token {p : Part} (h : p.IsRun) : p.token.Means p.text := by
  cases p with
  | string run => exact .string (Body.of_escape h)
  | data run => exact .data (Digits.of_run h)

theorem written_token (p : Part) : p.token.written = p.render := by
  cases p <;> rfl

end Part

/-- Whether two parts are of different kinds. -/
def TakeTurns (p q : Part) : Prop := p.token.isData = !q.token.isData

theorem concatenation_of_runs {p : Part} {ps : List Part} (runs : ∀ q ∈ p :: ps, q.IsRun)
    (turns : (p :: ps).IsChain TakeTurns) :
    Concatenation ((p :: ps).map Part.token) (join (p :: ps)) ((p :: ps).flatMap Part.text) := by
  induction ps generalizing p with
  | nil =>
    have means := Part.means_token (runs p List.mem_cons_self)
    simpa [join, Text.joinWith, Part.written_token] using Concatenation.last means
  | cons q ps ih =>
    rw [List.forall_mem_cons] at runs
    rw [List.isChain_cons_cons] at turns
    have more := ih runs.2 turns.2
    have means := Part.means_token runs.1
    have whole := Concatenation.next means turns.1 more
    rw [Part.written_token] at whole
    rw [join_cons, List.append_assoc]
    exact whole

theorem takeTurns_push (c : Char) (p q : Part) : TakeTurns (p.push c) q ↔ TakeTurns p q := by
  cases p <;> rfl

theorem isChain_pushFirst {c : Char} {ps : List Part} (h : ps.IsChain TakeTurns) :
    (pushFirst c ps).IsChain TakeTurns := by
  match ps with
  | [] => exact h
  | [p] => exact .singleton _
  | p :: q :: ps =>
    rw [List.isChain_cons_cons] at h
    rw [pushFirst, List.isChain_cons_cons, takeTurns_push]
    exact h

/-- The runs take turns. Only a data part that is continued may still be empty. -/
theorem parts_runs (s : List Char) :
    ((∀ p ∈ partsInString s, p.IsRun) ∧ (partsInString s).IsChain TakeTurns) ∧
      (∀ p ∈ (partsInData s).tail, p.IsRun) ∧ (partsInData s).IsChain TakeTurns := by
  induction s with
  | nil => simp [partsInString, partsInData, Part.IsRun]
  | cons c s ih =>
    obtain ⟨⟨stringRuns, stringTurns⟩, dataRuns, dataTurns⟩ := ih
    obtain ⟨run, ps, hs⟩ := partsInString_head s
    obtain ⟨bytes, ds, hd⟩ := partsInData_head s
    rw [hs] at stringRuns stringTurns
    rw [hd] at dataRuns dataTurns
    cases hc : isPlain c with
    | true =>
      have runs : ∀ p ∈ pushFirst c (.string run :: ps), p.IsRun := by
        rw [List.forall_mem_cons] at stringRuns
        rw [pushFirst, List.forall_mem_cons]
        exact ⟨List.forall_mem_cons.mpr ⟨hc, stringRuns.1⟩, stringRuns.2⟩
      have turns : (pushFirst c (.string run :: ps)).IsChain TakeTurns :=
        isChain_pushFirst stringTurns
      simp only [partsInString, partsInData, if_pos hc, hs]
      exact ⟨⟨runs, turns⟩, runs, List.isChain_cons_cons.mpr ⟨rfl, turns⟩⟩
    | false =>
      have turns : (pushFirst c (.data bytes :: ds)).IsChain TakeTurns :=
        isChain_pushFirst dataTurns
      have runs : ∀ p ∈ pushFirst c (.data bytes :: ds), p.IsRun :=
        List.forall_mem_cons.mpr ⟨List.cons_ne_nil c bytes, dataRuns⟩
      have starts : Part.IsRun (.string []) := fun x hx => absurd hx List.not_mem_nil
      simp only [partsInString, partsInData, hc, Bool.false_eq_true, if_false, hd]
      exact ⟨⟨List.forall_mem_cons.mpr ⟨starts, runs⟩, List.isChain_cons_cons.mpr ⟨rfl, turns⟩⟩,
        dataRuns, turns⟩

theorem concatenation_parts (s : List Char) :
    ∃ run ps, parts s = .string run :: ps ∧
      Concatenation ((Part.string run :: ps).map Part.token) (join (parts s)) s := by
  obtain ⟨run, ps, h⟩ := partsInString_head s
  obtain ⟨runs, turns⟩ := (parts_runs s).1
  have text := flatMap_text_parts s
  rw [parts, h] at text
  rw [h] at runs turns
  refine ⟨run, ps, h, ?_⟩
  have derived := concatenation_of_runs runs turns
  rw [text] at derived
  rwa [parts, h]

/-- The literal of a text follows the grammar and stands for the text, and a reader of scripts finds
in it the string literals that the grammar has there, and code around them. -/
theorem quote_stays_literal (s : List Char) :
    ∃ tokens, Parenthesised tokens (quote s) s ∧
      lex .code (quote s) = some (.code '(' :: separated tokens ++ [.code ')']) := by
  obtain ⟨run, ps, -, derived⟩ := concatenation_parts s
  have inside := lex_concatenation derived [')']
  rw [quote_eq_join]
  refine ⟨_, .parentheses derived, ?_⟩
  rw [List.cons_append, lex, if_neg (by decide), inside]
  rfl

end ScriptBridge.Literal
