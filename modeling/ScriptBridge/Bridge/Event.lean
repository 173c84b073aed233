import ScriptBridge.Aspect
import ScriptBridge.Number.Integer
import ScriptBridge.Error
/-!
What a bridge leaves behind: the fragments that calls built, the scripts it ran, the notices it sent
to listeners and the messages it logged, in one journal in the order in which they happened.
-/
namespace ScriptBridge

/-- A fragment as a call hands it over, with everything that stands around it. -/
structure Fragment where
  text : String
  /-- The application that is addressed. -/
  application : Option String
  /-- The global aspects, outermost first. -/
  globals : List Aspect
  /-- The aspects of the session, if the call is made in one. -/
  session : Option (List Aspect)

/-- The fragment with all its aspects around it. -/
def Fragment.wrapped (f : Fragment) : String :=
  Aspect.wrap f.globals f.session f.application f.text

/-- A notice about the execution of a script. -/
structure Event where
  script : String
  /-- Whether the execution begins; otherwise it has ended. -/
  started : Bool
  /-- The result, after an execution that succeeded. -/
  result : Option String := none
  deriving DecidableEq, Repr, Inhabited

namespace Event

/-- The notice that an execution begins. -/
def start (script : String) : Event := { script, started := true }

/-- The notice that an execution has ended. -/
def finish (script : String) (result : Option String) : Event :=
  { script, started := false, result }

/-- Whether the execution has ended. -/
def isFinished (e : Event) : Bool := !e.started

/-- The notice in words; the script is measured in bytes. -/
def render (e : Event) : String :=
  "execution " ++ (if e.started then "started" else "finished") ++ ": " ++
    Number.showInt e.script.utf8ByteSize ++ " bytes of script"

end Event

/-- How much a logged message matters. -/
inductive Level where
  | debug
  | warning
  deriving DecidableEq, Repr, Inhabited

/-- An entry of the journal. -/
inductive Entry where
  /-- A call built a fragment, to be run at once or collected in a session. -/
  | built (fragment : Fragment)
  /-- A script was given to the executor. -/
  | ran (script : String) (compiled : Bool) (result : Except ExecutionError String)
  | told (listener : String) (event : Event)
  | logged (level : Level) (message : String)

end ScriptBridge
