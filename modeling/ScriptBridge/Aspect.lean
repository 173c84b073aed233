import ScriptBridge.Text.Search
/-!
Aspects: what is put around every script fragment before it is sent.

An aspect may contribute a line before and a line after the fragment. Global aspects stand outside
and session aspects inside; the lines after come in the reverse order of the lines before, so that
aspects nest. Every line ends in a carriage return and a line feed. Lines inside a session are
indented by two spaces, the fragment included.
-/
namespace ScriptBridge

/-- Something put around script fragments. Both hooks see the application and the fragment. -/
structure Aspect where
  /-- The line before the fragment. -/
  before : (application : Option String) → (fragment : String) → Option String
  /-- The line after the fragment. -/
  after : (application : Option String) → (fragment : String) → Option String
  /-- The seconds, if the aspect is a time limit. -/
  timeoutSeconds : Option UInt32 := none

namespace Aspect

/-- Addresses the application. -/
def tell : Aspect where
  before application _ := application.map ("tell " ++ ·)
  after application _ := application.map fun _ => "end tell"

/-- The call that dates are written as. -/
def dateCall : String := "my createDate"

/-- The handler that dates call. -/
def dateHandler : String :=
  "on createDate(y, m, d, h, min, s)\n" ++
  "\tset dateVar to (current date)\n" ++
  "\tset year of dateVar to y\n" ++
  "\tset month of dateVar to m\n" ++
  "\tset day of dateVar to d\n" ++
  "\tset hours of dateVar to h\n" ++
  "\tset minutes of dateVar to min\n" ++
  "\tset seconds of dateVar to s\n" ++
  "\treturn dateVar\n" ++
  "end createDate"

/-- Adds the date handler after a fragment that calls it. -/
def dateHelper : Aspect where
  before _ _ := none
  after _ fragment :=
    if Text.contains fragment.toList dateCall.toList then some dateHandler else none

/-- Limits the time that the fragment may take. -/
def timeout (seconds : UInt32) : Aspect where
  before _ _ := some s!"with timeout of {seconds} seconds"
  after _ _ := some "end timeout"
  timeoutSeconds := some seconds

/-- The aspects that a new bridge has. -/
def defaults : List Aspect := [dateHelper, tell]

/-- A line of a script. -/
def line (indent text : String) : String := indent ++ text ++ "\r\n"

/-- The lines before a fragment. -/
def linesBefore (indent : String) (aspects : List Aspect) (application : Option String)
    (fragment : String) : String :=
  String.join (aspects.filterMap fun a => (a.before application fragment).map (line indent))

/-- The lines after a fragment, the last aspect's first. -/
def linesAfter (indent : String) (aspects : List Aspect) (application : Option String)
    (fragment : String) : String :=
  String.join (aspects.reverse.filterMap fun a => (a.after application fragment).map (line indent))

/-- A fragment with the aspects of its session around it, if it is sent in one. -/
def wrapInner (session : Option (List Aspect)) (application : Option String) (fragment : String) :
    String :=
  match session with
  | none => line "" fragment
  | some aspects =>
    linesBefore "  " aspects application fragment ++ line "  " fragment ++
      linesAfter "  " aspects application fragment

/-- A fragment with all aspects around it. -/
def wrap (globals : List Aspect) (session : Option (List Aspect)) (application : Option String)
    (fragment : String) : String :=
  linesBefore "" globals application fragment ++ wrapInner session application fragment ++
    linesAfter "" globals application fragment

end Aspect
end ScriptBridge
