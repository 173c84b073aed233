import ScriptBridge.Error
import ScriptBridge.Text.Hex
/-!
Reading what the interpreter writes to its error stream.

Characters that are not ASCII arrive as `\U` and four hexadecimal digits and are put back, one mark
of an escape after the other. A scripting addition that cannot be loaded is recognised by the
loader's message, whose lines end in the path of the offending bundle.
-/
namespace ScriptBridge.Diagnostic

/-- The character that a number names, if it names one. -/
def scalar? (n : Nat) : Option Char := if n.isValidChar then some (Char.ofNat n) else none

/-- What an escape starts with. -/
def mark : List Char := "\\U".toList

theorem length_mark : mark.length = 2 := by decide

/-- The character that the first four bytes of a text name, and what follows them. -/
def escaped? (candidate : List Char) : Option (Char × List Char) :=
  (Text.firstBytes? 4 candidate).bind fun (digits, rest) =>
    ((Hex.number? digits).bind scalar?).map fun char => (char, rest)

theorem length_le_of_escaped? {candidate rest : List Char} {char : Char}
    (read : escaped? candidate = some (char, rest)) : rest.length ≤ candidate.length := by
  obtain ⟨⟨_, _⟩, found, read⟩ := Option.bind_eq_some_iff.mp read
  obtain ⟨_, _, e⟩ := Option.map_eq_some_iff.mp read
  cases e
  exact Text.length_le_of_firstBytes? found

/-- The text with its `\U` escapes replaced. From each mark it goes on after the escape or, if what
follows the mark names no character, right after the mark. -/
def unescape (text : List Char) : List Char :=
  match _found : Text.splitFirst? mark text with
  | none => text
  | some (before, candidate) =>
    match _read : escaped? candidate with
    | some (char, rest) => before ++ char :: unescape rest
    | none => before ++ mark ++ unescape candidate
termination_by text.length
decreasing_by
  · have shorter := Text.length_of_splitFirst? _found
    have after := length_le_of_escaped? _read
    rw [length_mark] at shorter
    omega
  · have shorter := Text.length_of_splitFirst? _found
    rw [length_mark] at shorter
    omega

/-- The loader's message about a scripting addition. -/
def loadFailure : List Char := "dyld returns 2 when trying to load".toList

/-- The path named by a line that holds the loader's message. -/
def offender? (line : List Char) : Option String :=
  (Text.splitFirst? loadFailure line).bind fun (_, after) =>
    let path := Text.trim after
    if path.isEmpty then none else some (String.ofList path)

/-- The error that a diagnostic about a script stands for. -/
def classify (diagnostic script : String) : ExecutionError :=
  let text := unescape (Text.trimEnd diagnostic.toList)
  if Text.contains text loadFailure then
    .badScriptingAddition (String.ofList text) ((Text.lines text).filterMap offender?)
  else .script (String.ofList text) script

end ScriptBridge.Diagnostic
