import ScriptBridge.Text.Blank
import ScriptBridge.Text.Search
/-!
Chevrons: a kind word and a four-character code between guillemets, such as `«class cfol»`.

The script language prints a term this way when it has no name for it. The kind is one word and the
code is exactly four characters, which may be spaces, so `«class ask »` is a chevron; enumeration
constants such as `«constant ****ask »` carry a longer code and are not.
-/
namespace ScriptBridge

/-- A kind word with a four-character code. -/
structure Chevron where
  /-- What kind of term this names, such as `class`. -/
  kind : String
  /-- The four-character code. -/
  code : String
  deriving DecidableEq, Repr

namespace Chevron

/-- Why a text is not a chevron. -/
inductive Fault where
  | noOpening
  | noClosing
  | noSpace
  | codeLength
  | emptyKind
  | kindNotOneWord
  deriving DecidableEq, Repr

def Fault.message : Fault → String
  | .noOpening => "missing opening guillemet"
  | .noClosing => "missing closing guillemet"
  | .noSpace => "missing space between kind and code"
  | .codeLength => "code must be exactly 4 characters"
  | .emptyKind => "kind must not be empty"
  | .kindNotOneWord => "kind must be a single word"

/-- The chevron as script text. -/
def render (c : Chevron) : String := s!"«{c.kind} {c.code}»"

/-- Builds a chevron from its two parts. -/
def make (kind code : String) : Except Fault Chevron :=
  if kind.isEmpty ∨ ' ' ∈ kind.toList then .error .kindNotOneWord
  else if code.toList.length ≠ 4 then .error .codeLength
  else .ok { kind, code }

/-- Reads what stands between the guillemets. -/
def ofInner (inner : List Char) : Except Fault Chevron :=
  match Text.splitFirst? [' '] inner with
  | none => .error .noSpace
  | some (kind, code) =>
    if code.length ≠ 4 then .error .codeLength
    else if kind.isEmpty then .error .emptyKind
    else .ok { kind := String.ofList kind, code := String.ofList code }

/-- Reads a chevron, ignoring white space around it. -/
def parse (text : String) : Except Fault Chevron :=
  match ['«'].isPrefixOf? (Text.trim text.toList) with
  | none => .error .noOpening
  | some opened =>
    match ['»'].isSuffixOf? opened with
    | none => .error .noClosing
    | some inner => ofInner inner

/-- Whether a text stands between guillemets, ignoring white space around it. -/
def looksLike (text : String) : Bool :=
  let s := Text.trim text.toList
  ['«'].isPrefixOf s && ['»'].isSuffixOf s

end Chevron
end ScriptBridge
