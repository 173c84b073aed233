import ScriptBridge.Text.Blank
import ScriptBridge.Text.Search
import ScriptBridge.Text.Hex
import ScriptBridge.Text.Utf8
/-!
Text literals of the script language.

A script is sent as plain ASCII text where it quotes something: a literal is a parenthesised
concatenation of parts joined by ` & `, which alternate between string literals `"…"` holding the
ASCII runs, with `"` and `\` escaped, and data literals `(«data utf8…» as Unicode text)` holding
the other runs as the hexadecimal bytes of their UTF-8 form. The first part is always a string
literal.

`quote` writes that form. `unquote` reads it back, reads the plain `"…"` that the interpreter
prints, and gives any other text back trimmed.
-/
namespace ScriptBridge.Literal

open Text

/-! ## Writing -/

/-- Whether a character may stand in a string literal. -/
def isPlain (c : Char) : Bool := c.toNat ≤ 0x7F

/-- A character of a string literal, escaped if it would end the literal or escape its end. -/
def escapeChar (c : Char) : List Char := if c = '"' ∨ c = '\\' then ['\\', c] else [c]

/-- The body of a string literal that stands for a text. -/
def escape (s : List Char) : List Char := s.flatMap escapeChar

/-- What a data literal starts with. -/
def dataOpening : List Char := "(«data utf8".toList

/-- What a data literal ends with. -/
def dataClosing : List Char := "» as Unicode text)".toList

/-- A text as a data literal. -/
def unicodeText (s : List Char) : List Char :=
  dataOpening ++ Hex.lower (Utf8.encode s) ++ dataClosing

mutual
/-- The rest of a literal from inside a string part. -/
def quoteInString : List Char → List Char
  | [] => ['"', ')']
  | c :: rest =>
    if isPlain c then escapeChar c ++ quoteInString rest
    else "\" & ".toList ++ dataOpening ++ Hex.lower (Utf8.encodeChar c) ++ quoteInData rest

/-- The rest of a literal from inside a data part. -/
def quoteInData : List Char → List Char
  | [] => dataClosing ++ [')']
  | c :: rest =>
    if isPlain c then dataClosing ++ " & \"".toList ++ escapeChar c ++ quoteInString rest
    else Hex.lower (Utf8.encodeChar c) ++ quoteInData rest
end

/-- The literal that stands for a text. -/
def quote (s : List Char) : List Char := '(' :: '"' :: quoteInString s

/-! ## Reading -/

/-- The text of a string literal's body. A backslash before anything but `"` or `\` stands for
itself. -/
def unescape : List Char → List Char
  | [] => []
  | ['\\'] => ['\\']
  | '\\' :: c :: rest =>
    if c = '"' ∨ c = '\\' then c :: unescape rest else '\\' :: c :: unescape rest
  | c :: rest => c :: unescape rest

/-- The parts of a concatenation, cut at each `&` outside of string literals. The flags say
whether a string literal is open and whether the last character was an escaping backslash. -/
def splitParts : (inString escaping : Bool) → List Char → List (List Char)
  | _, _, [] => [[]]
  | inString, escaping, c :: rest =>
    if c = '&' ∧ inString = false then [] :: splitParts inString false rest
    else
      let inString := if c = '"' ∧ escaping = false then !inString else inString
      match splitParts inString (c = '\\' && !escaping) rest with
      | [] => [[c]]
      | part :: more => (c :: part) :: more

/-- The body of a text that is a plain string literal. -/
def stringBody? (s : List Char) : Option (List Char) := between? ['"'] ['"'] s

/-- The text of a data literal. -/
def dataText? (s : List Char) : Option (List Char) :=
  (between? dataOpening dataClosing s).bind fun digits =>
    (Hex.bytes? digits).bind Utf8.decode?

/-- The text of one part of a concatenation. -/
def partText? (part : List Char) : Option (List Char) :=
  match stringBody? part with
  | some body => some (unescape body)
  | none => dataText? part

/-- The text of a concatenation, if each of its parts is a literal. -/
def concatenation? (s : List Char) : Option (List Char) :=
  ((splitParts false false s).mapM fun part => partText? (trim part)).map List.flatten

/-- The text that a literal stands for; text that is no literal stands for itself, trimmed. -/
def unquote (s : List Char) : List Char :=
  let s := trim s
  match (between? ['('] [')'] s).bind fun inner => concatenation? (trim inner) with
  | some joined => joined
  | none =>
    match stringBody? s with
    | some body => unescape body
    | none => s

end ScriptBridge.Literal
