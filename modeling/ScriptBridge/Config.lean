import ScriptBridge.Dictionary.Json
/-!
The configuration of a bridge and its JSON form.

Every field has a default, so a configuration may leave out any of them. It is written with all its
fields in a fixed order, one a line.
-/
namespace ScriptBridge

/-- What a bridge can be told. -/
structure Config where
  /-- Whether elements are addressed by building their specifiers instead of asking for them. -/
  reduceScriptExecutions : Bool
  interpreterProgram : String
  compilerProgram : String
  /-- Where compiled scripts are kept. -/
  compiledScriptCache : String
  /-- The locale of the dates that the interpreter prints. -/
  dateLocale : String
  /-- How many characters of a result are logged. -/
  maxLoggedResultLength : Nat
  deriving DecidableEq, Repr, Inhabited

namespace Config

/-- A path below a directory. -/
def joinPath (directory path : String) : String :=
  if directory.isEmpty || ['/'].isSuffixOf directory.toList then directory ++ path
  else directory ++ "/" ++ path

/-- The configuration of a user whose home directory is given. -/
def default (home : Option String) : Config where
  reduceScriptExecutions := true
  interpreterProgram := "osascript"
  compilerProgram := "osacompile"
  compiledScriptCache := match home with
    | some home => joinPath home "Library/Caches/tellscript"
    | none => "/tmp/tellscript"
  dateLocale := "en_US"
  maxLoggedResultLength := 1024

/-- The names of the fields in their order. -/
def fieldNames : List String :=
  ["reduce_script_executions", "osascript_program", "osacompile_program", "compiled_script_cache",
    "date_locale", "max_logged_result_len"]

/-- A length: a whole number of at most 64 bits, without a sign. -/
def length? : Json → Option Nat
  | .number literal =>
    let digits := literal.toList
    if digits.all Char.isDigit then
      let n := digits.foldl (fun n c => 10 * n + (c.toNat - '0'.toNat)) 0
      if n < 18446744073709551616 then some n else none
    else none
  | _ => none

def toJson (c : Config) : Json :=
  .ofMembers [("reduce_script_executions", .bool c.reduceScriptExecutions),
    ("osascript_program", .ofText c.interpreterProgram),
    ("osacompile_program", .ofText c.compilerProgram),
    ("compiled_script_cache", .ofText c.compiledScriptCache),
    ("date_locale", .ofText c.dateLocale),
    ("max_logged_result_len", .ofInt c.maxLoggedResultLength)]

/-- Reads a configuration; what is missing is taken from another one. -/
def ofJson? (base : Config) (j : Json) : Option Config :=
  match Json.fields? fieldNames Json.depthLimit j with
  | some (_, [reduces, interpreter, compiler, cache, locale, length]) => do
    let reduceScriptExecutions ← Json.defaulted base.reduceScriptExecutions Json.bool? reduces
    let interpreterProgram ← Json.defaulted base.interpreterProgram Json.text? interpreter
    let compilerProgram ← Json.defaulted base.compilerProgram Json.text? compiler
    let compiledScriptCache ← Json.defaulted base.compiledScriptCache Json.text? cache
    let dateLocale ← Json.defaulted base.dateLocale Json.text? locale
    let maxLoggedResultLength ← Json.defaulted base.maxLoggedResultLength length? length
    some { reduceScriptExecutions, interpreterProgram, compilerProgram, compiledScriptCache,
           dateLocale, maxLoggedResultLength }
  | _ => none

/-- The text of a configuration's file. -/
def render (c : Config) : String := c.toJson.pretty

/-- The configuration in the text of a file. -/
def parse? (base : Config) (text : String) : Option Config := (Json.parse? text).bind (ofJson? base)

end Config
end ScriptBridge
