import ScriptBridge.Diagnostic
import ScriptBridge.Text.Utf8
/-!
Programs that are started to run or compile a script, and how their result is read.

A program that writes anything but white space to its error stream has failed, whatever its status,
and what it wrote is the diagnostic. Otherwise the status decides. The result is the output without
the line ends it ends with. Bytes that are not UTF-8 are read as replacement characters.
-/
namespace ScriptBridge

/-- A start of a program. -/
structure ProgramCall where
  program : String
  arguments : List String
  /-- What it can read from its standard input. -/
  input : String
  deriving DecidableEq, Repr, Inhabited

/-- What a program did. -/
structure Outcome where
  output : List UInt8 := []
  errors : List UInt8 := []
  status : Nat := 0
  deriving DecidableEq, Repr, Inhabited

/-- A text without the line ends it ends with. -/
def dropLineEnds (s : List Char) : List Char :=
  (s.reverse.dropWhile fun c => c == '\r' || c == '\n').reverse

/-- The result of a program that ran for a script, or that could not be started. -/
def Outcome.result (program script : String) : Option Outcome → Except ExecutionError String
  | none => .error (.notStarted program)
  | some o =>
    let errors := Utf8.decodeLossy o.errors
    if !(Text.trim errors).isEmpty then
      .error (Diagnostic.classify (String.ofList errors) script)
    else if o.status ≠ 0 then
      .error (.script (Text.quoted program ++ " exited with exit status: " ++
        Number.showInt o.status) script)
    else .ok (String.ofList (dropLineEnds (Utf8.decodeLossy o.output)))

end ScriptBridge
