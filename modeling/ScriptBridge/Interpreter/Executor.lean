import ScriptBridge.Interpreter.Cache
/-!
Executors: what runs scripts for a bridge.

An interpreter is a program that reads a script from its standard input, or runs a compiled file
from a cache. A rehearsal is an executor for tests: it answers from a queue of prepared replies, and
with the empty text when the queue is empty; a prepared failure is a diagnostic, classified together
with the script that it answers.

What the world does is part of the executor's state: the prepared replies, or what the programs will
do when they are started. So a run of scripts is a function, and a statement about every run is a
statement about every such state.
-/
namespace ScriptBridge

/-- What the interpreter and the compiler do during one execution. -/
structure Reaction where
  /-- How the interpreter ends; nothing if it cannot be started. -/
  interpretation : Option Outcome := none
  /-- What the compiler does. -/
  compilation : Compilation := {}
  deriving DecidableEq, Repr, Inhabited

/-- An interpreter program, perhaps with a cache of compiled scripts. -/
structure Interpreter where
  program : String
  cache : Option ScriptCache := none
  /-- The programs that were started, in order. -/
  calls : List ProgramCall := []
  deriving Repr, Inhabited

namespace Interpreter

def start (i : Interpreter) (r : Reaction) (script : String) (arguments : List String)
    (input : String) : Except ExecutionError String × Interpreter :=
  let call : ProgramCall := { program := i.program, arguments, input }
  let calls := if r.interpretation.isSome then i.calls ++ [call] else i.calls
  (Outcome.result i.program script r.interpretation, { i with calls })

/-- Runs a script from its source. -/
def execute (i : Interpreter) (r : Reaction) (script : String) :
    Except ExecutionError String × Interpreter :=
  i.start r script ["-s", "s", "-"] script

/-- Runs a script from its compiled file, if there is a cache. -/
def executeCompiled (i : Interpreter) (r : Reaction) (script : String) :
    Except ExecutionError String × Interpreter :=
  match i.cache with
  | none => i.execute r script
  | some cache =>
    let (result, cache, calls) := cache.compiled r.compilation script
    let i := { i with cache := some cache, calls := i.calls ++ calls }
    match result with
    | .error e => (.error e, i)
    | .ok file => i.start r script ["-s", "s", file] ""

end Interpreter

inductive Reply where
  | answers (text : String)
  | fails (diagnostic : String)
  deriving DecidableEq, Repr, Inhabited

/-- The result of a script that gets a prepared reply. -/
def Reply.result (script : String) : Reply → Except ExecutionError String
  | answers text => .ok text
  | fails diagnostic => .error (Diagnostic.classify diagnostic script)

/-- What runs scripts. -/
inductive Executor where
  | rehearsal (replies : List Reply)
  | interpreter (i : Interpreter) (reactions : List Reaction)
  deriving Repr, Inhabited

/-- Runs a script, compiled or not. -/
def Executor.run (script : String) (compile : Bool) :
    Executor → Except ExecutionError String × Executor
  | rehearsal [] => (.ok "", rehearsal [])
  | rehearsal (reply :: replies) => (reply.result script, rehearsal replies)
  | interpreter i reactions =>
    let r := reactions.headD {}
    let (result, i) := if compile then i.executeCompiled r script else i.execute r script
    (result, interpreter i reactions.tail)

end ScriptBridge
