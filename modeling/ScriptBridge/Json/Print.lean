import ScriptBridge.Json.Basic
import ScriptBridge.Text.Hex
/-!
Writing JSON, in one line or with one member a line.

Strings escape the quote, the backslash and the control characters below U+0020, the common ones by
a letter and the others as `\u00xx`; all else is written as it is.
-/
namespace ScriptBridge.Json

/-- A character inside a string. -/
def escapeChar (c : Char) : List Char :=
  if c = '"' then ['\\', '"']
  else if c = '\\' then ['\\', '\\']
  else if c = '\x08' then ['\\', 'b']
  else if c = '\t' then ['\\', 't']
  else if c = '\n' then ['\\', 'n']
  else if c = '\x0c' then ['\\', 'f']
  else if c = '\r' then ['\\', 'r']
  else if c.toNat < 0x20 then
    ['\\', 'u', '0', '0', Hex.lowerDigit (c.toNat / 16), Hex.lowerDigit (c.toNat % 16)]
  else [c]

/-- A text as a string. -/
def quote (s : List Char) : List Char := '"' :: s.flatMap escapeChar ++ ['"']

/-- A string; one that holds no text is written as half of a surrogate pair. -/
def renderString : Option String → List Char
  | some s => quote s.toList
  | none => "\"\\ud800\"".toList

mutual
/-- A document in one line. -/
def renderChars : Json → List Char
  | null => "null".toList
  | bool true => "true".toList
  | bool false => "false".toList
  | number literal => literal.toList
  | string text => renderString text
  | array [] => ['[', ']']
  | array (item :: items) => '[' :: item.renderChars ++ renderItems items
  | object [] => ['\x7b', '\x7d']
  | object ((key, value) :: members) =>
    '\x7b' :: renderString key ++ ':' :: value.renderChars ++ renderMembers members

/-- The further items of an array and its end. -/
def renderItems : List Json → List Char
  | [] => [']']
  | item :: items => ',' :: item.renderChars ++ renderItems items

/-- The further members of an object and its end. -/
def renderMembers : List (Option String × Json) → List Char
  | [] => ['\x7d']
  | (key, value) :: members =>
    ',' :: renderString key ++ ':' :: value.renderChars ++ renderMembers members
end

/-- A document in one line, as a string. -/
def render (j : Json) : String := String.ofList j.renderChars

/-- The start of a line at a depth. -/
def newLine (depth : Nat) : List Char := '\n' :: List.replicate (2 * depth) ' '

mutual
/-- A document with one item or member a line, inside so many others. -/
def prettyChars (depth : Nat) : Json → List Char
  | array (item :: items) =>
    '[' :: newLine (depth + 1) ++ item.prettyChars (depth + 1) ++ prettyItems depth items
  | object ((key, value) :: members) =>
    '\x7b' :: newLine (depth + 1) ++ renderString key ++ [':', ' '] ++
      value.prettyChars (depth + 1) ++ prettyMembers depth members
  | array [] => ['[', ']']
  | object [] => ['\x7b', '\x7d']
  | null => "null".toList
  | bool true => "true".toList
  | bool false => "false".toList
  | number literal => literal.toList
  | string text => renderString text

/-- The further items of an array and its end. -/
def prettyItems (depth : Nat) : List Json → List Char
  | [] => newLine depth ++ [']']
  | item :: items =>
    ',' :: newLine (depth + 1) ++ item.prettyChars (depth + 1) ++ prettyItems depth items

/-- The further members of an object and its end. -/
def prettyMembers (depth : Nat) : List (Option String × Json) → List Char
  | [] => newLine depth ++ ['\x7d']
  | (key, value) :: members =>
    ',' :: newLine (depth + 1) ++ renderString key ++ [':', ' '] ++
      value.prettyChars (depth + 1) ++ prettyMembers depth members
end

/-- A document with one item or member a line, as a string. -/
def pretty (j : Json) : String := String.ofList (j.prettyChars 0)

end ScriptBridge.Json
