import ScriptBridge.Bridge.Basic
/-!
Sessions: script fragments that are collected and sent as one script.

A session holds the text of the pending fragments and aspects of its own. Committing it sends what
is pending, if anything is; flushing it empties the buffer whether the script succeeds or not. A
session has at most one time limit that was set through it, which stands before its other aspects.
-/
namespace ScriptBridge

structure Session where
  /-- The pending fragments, each one followed by a line feed. -/
  script : String := ""
  /-- The aspects, outermost first. -/
  aspects : List (Installed Aspect) := []
  /-- The time limit in seconds. -/
  timeout : Option UInt32 := none
  /-- Whether calls with a result are collected too, and give no result. -/
  ignoresResults : Bool := false
  /-- Whether scripts are compiled before they run. -/
  compiles : Bool := false

namespace Session

def add (fragment : String) (s : Session) : Session :=
  { s with script := s.script ++ fragment ++ "\n" }

/-- Whether nothing is pending. -/
def isEmpty (s : Session) : Bool := s.script.isEmpty

/-- The aspects without their numbers. -/
def aspectList (s : Session) : List Aspect := s.aspects.map Installed.item

/-- Adds an aspect inside the others. -/
def addAspect (aspect : Installed Aspect) (s : Session) : Session :=
  { s with aspects := s.aspects ++ [aspect] }

/-- Removes an aspect; also whether it was there. -/
def removeAspect (handle : Nat) (s : Session) : Bool × Session :=
  let aspects := removeInstalled handle s.aspects
  (aspects.length != s.aspects.length, { s with aspects })

/-- Limits the time of the fragments to come, or lifts the limit if the number is not positive. Any
earlier time limit is removed; the new one is installed under the given number. -/
def setTimeout (handle : Nat) (seconds : Int32) (s : Session) : Session :=
  let others := s.aspects.filter (·.item.timeoutSeconds.isNone)
  if 0 < seconds then
    let limit := seconds.toUInt32
    { s with aspects := { handle, item := .timeout limit } :: others, timeout := some limit }
  else { s with aspects := others, timeout := none }

/-- The time limit as it is reported: -1 if there is none. -/
def reportedTimeout (s : Session) : Int :=
  match s.timeout with
  | some seconds => seconds.toNat
  | none => -1

end Session

namespace Bridge

/-- How long a text is, in words. -/
def inBytes (text : String) : String := Number.showInt text.utf8ByteSize ++ " bytes"

def startSession (b : Bridge) : Session × Bridge := ({}, b.log .debug "Session started")

/-- Discards what is pending in a session. -/
def resetSession (s : Session) (b : Bridge) : Session × Bridge :=
  ({ s with script := "" },
    if s.isEmpty then b
    else b.log .debug ("Discarding " ++ inBytes s.script ++ " of pending script"))

/-- Sends what is pending in a session and empties it. -/
def flushSession (s : Session) (b : Bridge) :
    Except ScriptError String × Session × Bridge :=
  let b := b.log .debug ("Executing " ++ inBytes s.script ++ " of batched script")
  let (result, b) := b.run s.script s.compiles
  (result.mapError .execution, { s with script := "" }, b)

/-- Sends what is pending in a session, if anything is, and closes it. -/
def commitSession (s : Session) (b : Bridge) : Except ScriptError Unit × Bridge :=
  if s.isEmpty then (.ok (), b)
  else
    let (result, _, b) := b.flushSession s
    (result.map fun _ => (), b)

/-- Closes a session without sending anything. -/
def dropSession (s : Session) (b : Bridge) : Bridge :=
  if s.isEmpty then b
  else b.log .warning
    ("Session dropped with uncommitted fragments, discarding:\n" ++ s.script)

end Bridge
end ScriptBridge
