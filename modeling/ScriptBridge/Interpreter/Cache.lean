import ScriptBridge.Digest.Blake3
import ScriptBridge.Interpreter.Program
/-!
The cache of compiled scripts.

A compiled script is a file named by the hash of its source, so the same source is compiled once. A
script is in the cache exactly when its file exists: a compiler that leaves the file and fails
leaves it in the cache. The source is written beside it for the compiler and removed afterwards.

The directory is kept as the set of names in it, in order, or as nothing while it does not exist.
-/
namespace ScriptBridge

/-- A directory of compiled scripts. -/
structure ScriptCache where
  directory : String
  /-- The program that compiles. -/
  compiler : String
  /-- The names of the files, if the directory exists. -/
  files : Option (List String) := none
  deriving DecidableEq, Repr, Inhabited

/-- What the compiler does when it is started. -/
structure Compilation where
  /-- How the program ends; nothing if it cannot be started. -/
  outcome : Option Outcome := none
  /-- Whether it writes the compiled script. -/
  writes : Bool := false
  deriving DecidableEq, Repr, Inhabited

namespace ScriptCache

def key (script : String) : String := Blake3.hexDigest (Utf8.encode script.toList)

/-- The name of a script's compiled file. -/
def fileName (script : String) : String := key script ++ ".scpt"

/-- The name of a script's source file. -/
def sourceName (script : String) : String := key script ++ ".applescript"

/-- A path in the directory. -/
def pathOf (c : ScriptCache) (name : String) : String := c.directory ++ "/" ++ name

/-- The path of a script's compiled file. -/
def pathFor (c : ScriptCache) (script : String) : String := c.pathOf (fileName script)

/-- A name added to a set of names in order. -/
def insertName (name : String) : List String → List String
  | [] => [name]
  | other :: rest =>
    if name < other then name :: other :: rest
    else if name = other then other :: rest
    else other :: insertName name rest

/-- The names in the directory. -/
def names (c : ScriptCache) : List String := c.files.getD []

/-- The directory with a file created in it. -/
def touch (c : ScriptCache) (name : String) : ScriptCache :=
  { c with files := some (insertName name c.names) }

/-- The directory with a file removed from it. -/
def remove (c : ScriptCache) (name : String) : ScriptCache :=
  { c with files := c.files.map fun files => files.filter (· != name) }

def contains (c : ScriptCache) (name : String) : Bool := c.names.contains name

/-- The start of the compiler for a script. -/
def compilerCall (c : ScriptCache) (script : String) : ProgramCall :=
  { program := c.compiler,
    arguments := ["-o", c.pathFor script, c.pathOf (sourceName script)],
    input := "" }

/-- The path of a compiled script, compiled now if it is not in the cache; also the programs that
were started. -/
def compiled (c : ScriptCache) (compilation : Compilation) (script : String) :
    Except ExecutionError String × ScriptCache × List ProgramCall :=
  if c.contains (fileName script) then (.ok (c.pathFor script), c, [])
  else
    let prepared := c.touch (sourceName script)
    let ran := if compilation.outcome.isSome && compilation.writes then
      prepared.touch (fileName script) else prepared
    let cleaned := ran.remove (sourceName script)
    let calls := if compilation.outcome.isSome then [c.compilerCall script] else []
    match Outcome.result c.compiler script compilation.outcome with
    | .ok _ => (.ok (c.pathFor script), cleaned, calls)
    | .error e => (.error e, cleaned, calls)

/-- Whether a name is that of a compiled script: it ends in `.scpt` and has something before it. -/
def isCompiledName (name : String) : Bool :=
  match ".scpt".toList.isSuffixOf? name.toList with
  | some stem => !stem.isEmpty
  | none => false

/-- The directory without its compiled scripts. -/
def clear (c : ScriptCache) : ScriptCache :=
  { c with files := c.files.map fun files => files.filter fun name => !isCompiledName name }

end ScriptCache
end ScriptBridge
