import ScriptBridge.Json.Basic
import ScriptBridge.Text.Hex
/-!
Reading JSON.

Reading goes in two passes, each one a machine that takes one element at a time, so that both end
with their input. The first passes over the characters and yields tokens; its state is what has been
read of the current token. The second passes over the tokens; its state is what may come next, on a
stack of the arrays and objects that are open.

White space is the four characters of the grammar and nothing else. Anything after the document,
control characters in strings, unknown escapes and numbers with leading zeros are refused.
-/
namespace ScriptBridge.Json

/-! ## Tokens -/

/-- The elements of a document's text. -/
inductive Token where
  | openArray
  | closeArray
  | openObject
  | closeObject
  | comma
  | colon
  | atom (value : Json)

/-- The content of a string as far as it has been read. -/
structure Content where
  /-- The characters so far, in reverse; nothing once half of a surrogate pair stood alone. -/
  reversed : Option (List Char) := some []
  /-- The first half of a surrogate pair whose second half must come next. -/
  pending : Option Nat := none

/-- The content after a character. -/
def Content.push (c : Content) (char : Char) : Content :=
  match c.pending with
  | some _ => { reversed := none }
  | none => { c with reversed := c.reversed.map (char :: ·) }

/-- The content after an escaped code unit. -/
def Content.pushUnit (c : Content) (unit : Nat) : Content :=
  match c.pending with
  | some high =>
    if 0xDC00 ≤ unit ∧ unit ≤ 0xDFFF then
      let char := Char.ofNat (0x10000 + (high - 0xD800) * 0x400 + (unit - 0xDC00))
      { reversed := c.reversed.map (char :: ·) }
    else { reversed := none }
  | none =>
    if 0xD800 ≤ unit ∧ unit ≤ 0xDBFF then { c with pending := some unit }
    else if 0xDC00 ≤ unit ∧ unit ≤ 0xDFFF then { reversed := none }
    else { c with reversed := c.reversed.map (Char.ofNat unit :: ·) }

/-- The string of a finished content. -/
def Content.toJson (c : Content) : Json :=
  .string (if c.pending.isSome then none else c.reversed.map fun r => String.ofList r.reverse)

/-- What has been read of the current token. -/
inductive Reading where
  | between
  | inNumber (reversed : List Char)
  | inWord (reversed : List Char)
  | inString (content : Content)
  | inEscape (content : Content)
  | inUnit (content : Content) (owed value : Nat)

/-- Whether a character may separate tokens. -/
def isSpace (c : Char) : Bool := c == ' ' || c == '\n' || c == '\t' || c == '\r'

/-- Whether a character may stand in a number. -/
def isNumberChar (c : Char) : Bool :=
  ('0' ≤ c && c ≤ '9') || c == '-' || c == '+' || c == '.' || c == 'e' || c == 'E'

/-- Whether a character may stand in a word. -/
def isWordChar (c : Char) : Bool := 'a' ≤ c && c ≤ 'z'

/-- Whether there is a first digit and all are digits. -/
def isDigits (s : List Char) : Bool := !s.isEmpty && s.all fun c => '0' ≤ c && c ≤ '9'

/-- Whether a text is an exponent, or nothing. -/
def isExponent : List Char → Bool
  | [] => true
  | c :: rest =>
    (c == 'e' || c == 'E') &&
      match rest with
      | '+' :: digits => isDigits digits
      | '-' :: digits => isDigits digits
      | digits => isDigits digits

/-- Whether a text is a fraction and an exponent, each of which may be missing. -/
def isTail : List Char → Bool
  | '.' :: rest =>
    let isDigit (c : Char) := '0' ≤ c && c ≤ '9'
    isDigits (rest.takeWhile isDigit) && isExponent (rest.dropWhile isDigit)
  | rest => isExponent rest

/-- Whether a text is a number without a sign. -/
def isUnsigned : List Char → Bool
  | '0' :: rest => isTail rest
  | rest =>
    let isDigit (c : Char) := '0' ≤ c && c ≤ '9'
    isDigits (rest.takeWhile isDigit) && isTail (rest.dropWhile isDigit)

/-- Whether a text is a number. -/
def isNumber : List Char → Bool
  | '-' :: rest => isUnsigned rest
  | rest => isUnsigned rest

/-- The token of a finished number. -/
def numberToken? (s : List Char) : Option Token :=
  if isNumber s then some (.atom (.number (String.ofList s))) else none

/-- The token of a finished word. -/
def wordToken? (s : List Char) : Option Token :=
  if s = "null".toList then some (.atom .null)
  else if s = "true".toList then some (.atom (.bool true))
  else if s = "false".toList then some (.atom (.bool false))
  else none

/-- The character that a one-letter escape stands for. -/
def escape? (c : Char) : Option Char :=
  if c = '"' ∨ c = '\\' ∨ c = '/' then some c
  else if c = 'b' then some '\x08'
  else if c = 'f' then some '\x0c'
  else if c = 'n' then some '\n'
  else if c = 'r' then some '\r'
  else if c = 't' then some '\t'
  else none

/-- What a character does between tokens: the tokens it makes and how reading goes on. -/
def start? (c : Char) : Option (List Token × Reading) :=
  if isSpace c then some ([], .between)
  else if c = '[' then some ([.openArray], .between)
  else if c = ']' then some ([.closeArray], .between)
  else if c = '\x7b' then some ([.openObject], .between)
  else if c = '\x7d' then some ([.closeObject], .between)
  else if c = ',' then some ([.comma], .between)
  else if c = ':' then some ([.colon], .between)
  else if c = '"' then some ([], .inString {})
  else if isWordChar c then some ([], .inWord [c])
  else if isNumberChar c then some ([], .inNumber [c])
  else none

/-- What a character does: the tokens it finishes or makes and how reading goes on. -/
def step? (c : Char) : Reading → Option (List Token × Reading)
  | .between => start? c
  | .inNumber reversed =>
    if isNumberChar c then some ([], .inNumber (c :: reversed))
    else (numberToken? reversed.reverse).bind fun token =>
      (start? c).map fun (tokens, reading) => (token :: tokens, reading)
  | .inWord reversed =>
    if isWordChar c then some ([], .inWord (c :: reversed))
    else (wordToken? reversed.reverse).bind fun token =>
      (start? c).map fun (tokens, reading) => (token :: tokens, reading)
  | .inString content =>
    if c = '"' then some ([.atom content.toJson], .between)
    else if c = '\\' then some ([], .inEscape content)
    else if c.toNat < 0x20 then none
    else some ([], .inString (content.push c))
  | .inEscape content =>
    if c = 'u' then some ([], .inUnit content 4 0)
    else (escape? c).map fun char => ([], .inString (content.push char))
  | .inUnit content owed value =>
    (Hex.digit? c).map fun digit =>
      let value := 16 * value + digit
      if owed ≤ 1 then ([], .inString (content.pushUnit value))
      else ([], .inUnit content (owed - 1) value)

/-- The tokens that the end of the text finishes. -/
def finish? : Reading → Option (List Token)
  | .between => some []
  | .inNumber reversed => (numberToken? reversed.reverse).map fun token => [token]
  | .inWord reversed => (wordToken? reversed.reverse).map fun token => [token]
  | _ => none

/-- The tokens of a text, given what has been read of the current one. -/
def tokens? (reading : Reading) : List Char → Option (List Token)
  | [] => finish? reading
  | c :: rest =>
    (step? c reading).bind fun (tokens, reading) => (tokens? reading rest).map (tokens ++ ·)

/-! ## Documents -/

/-- An array or object that is open, with what it holds so far in reverse. -/
inductive Frame where
  | array (items : List Json)
  | member (members : List (Option String × Json)) (key : Option String)

/-- What may come next. -/
inductive Expecting where
  | value
  | firstItem
  | firstKey
  | key (members : List (Option String × Json))
  | colon (members : List (Option String × Json)) (key : Option String)
  | after (value : Json)

/-- Reads tokens to the end. -/
def document? : Expecting → List Frame → List Token → Option Json
  | .after value, [], [] => some value
  | .value, frames, .atom value :: rest => document? (.after value) frames rest
  | .value, frames, .openArray :: rest => document? .firstItem frames rest
  | .value, frames, .openObject :: rest => document? .firstKey frames rest
  | .firstItem, frames, .closeArray :: rest => document? (.after (.array [])) frames rest
  | .firstItem, frames, .atom value :: rest => document? (.after value) (.array [] :: frames) rest
  | .firstItem, frames, .openArray :: rest => document? .firstItem (.array [] :: frames) rest
  | .firstItem, frames, .openObject :: rest => document? .firstKey (.array [] :: frames) rest
  | .firstKey, frames, .closeObject :: rest => document? (.after (.object [])) frames rest
  | .firstKey, frames, .atom (.string key) :: rest => document? (.colon [] key) frames rest
  | .key members, frames, .atom (.string key) :: rest => document? (.colon members key) frames rest
  | .colon members key, frames, .colon :: rest =>
    document? .value (.member members key :: frames) rest
  | .after value, .array items :: frames, .comma :: rest =>
    document? .value (.array (value :: items) :: frames) rest
  | .after value, .array items :: frames, .closeArray :: rest =>
    document? (.after (.array (value :: items).reverse)) frames rest
  | .after value, .member members key :: frames, .comma :: rest =>
    document? (.key ((key, value) :: members)) frames rest
  | .after value, .member members key :: frames, .closeObject :: rest =>
    document? (.after (.object ((key, value) :: members).reverse)) frames rest
  | _, _, _ => none

/-- The document that a text spells. -/
def parse? (text : String) : Option Json :=
  (tokens? .between text.toList).bind (document? .value [])

end ScriptBridge.Json
