import ScriptBridge.Aspect
import ScriptBridge.Codec.Chain
import ScriptBridge.Config
import ScriptBridge.Interpreter.Executor
import ScriptBridge.Bridge.Event
import ScriptBridge.TypeClass.Table
/-!
The bridge: everything that calls share.

A bridge holds the codecs, the global aspects, the intern table, the registered applications, the
executor and the listeners. What it does is a function from one bridge to the next, and the journal
tells what happened. Codecs and aspects are installed under numbers that whoever installs them
chooses, and are removed by those.
-/
namespace ScriptBridge

/-- The state that calls share. -/
structure Bridge where
  /-- What it was told. -/
  config : Config
  /-- What runs scripts. -/
  executor : Executor
  /-- The codecs in the order in which they are consulted. -/
  codecs : List (Installed Codec)
  /-- The global aspects, outermost first. -/
  aspects : List (Installed Aspect)
  classes : ClassTable := {}
  applications : Registry := {}
  /-- The listeners in the order in which they are told. -/
  listeners : List String := []
  /-- What happened so far. -/
  journal : List Entry := []

namespace Bridge

/-- Items installed under the numbers from zero. -/
def installAll {α : Type} (items : List α) : List (Installed α) :=
  items.zipIdx.map fun (item, handle) => { handle, item }

def new (config : Config) (executor : Executor) : Bridge where
  config := config
  executor := executor
  codecs := installAll (Codec.builtin config.dateLocale)
  aspects := installAll Aspect.defaults

/-! ## Parts -/

/-- The codecs without their numbers. -/
def codecList (b : Bridge) : List Codec := b.codecs.map Installed.item

/-- The global aspects without their numbers. -/
def aspectList (b : Bridge) : List Aspect := b.aspects.map Installed.item

/-- Installs a codec behind the others. -/
def addCodec (b : Bridge) (codec : Installed Codec) : Bridge :=
  { b with codecs := b.codecs ++ [codec] }

/-- Installs a codec before the others. -/
def addCodecFirst (b : Bridge) (codec : Installed Codec) : Bridge :=
  { b with codecs := codec :: b.codecs }

/-- Removes a codec; also whether it was there. -/
def removeCodec (b : Bridge) (handle : Nat) : Bool × Bridge :=
  let codecs := removeInstalled handle b.codecs
  (codecs.length != b.codecs.length, { b with codecs })

/-- Installs a global aspect inside the others. -/
def addAspect (b : Bridge) (aspect : Installed Aspect) : Bridge :=
  { b with aspects := b.aspects ++ [aspect] }

/-- Removes a global aspect; also whether it was there. -/
def removeAspect (b : Bridge) (handle : Nat) : Bool × Bridge :=
  let aspects := removeInstalled handle b.aspects
  (aspects.length != b.aspects.length, { b with aspects })

def listen (b : Bridge) (listener : String) : Bridge :=
  { b with listeners := b.listeners ++ [listener] }

def decode (b : Bridge) (target : ValueType) (reference : Reference) :
    Except ScriptError Value :=
  Codec.decodeAs b.codecList b.applications target reference

def encode (b : Bridge) (value : Value) : Except ScriptError String :=
  Codec.encodeAs b.codecList b.applications value

/-- A fragment with the global aspects and those of a session around it. -/
def wrap (b : Bridge) (session : Option (List Aspect)) (application : Option String)
    (fragment : String) : String :=
  Aspect.wrap b.aspectList session application fragment

/-! ## Journal -/

/-- Adds an entry to the journal. -/
def note (entry : Entry) (b : Bridge) : Bridge := { b with journal := b.journal ++ [entry] }

def log (level : Level) (message : String) (b : Bridge) : Bridge :=
  b.note (.logged level message)

def tell (event : Event) (b : Bridge) : Bridge :=
  { b with journal := b.journal ++ b.listeners.map (.told · event) }

/-! ## Executing -/

/-- The first characters of a text, so many at most. -/
def truncated (length : Nat) (text : String) : String := String.ofList (text.toList.take length)

/-- Gives a script to the executor. -/
def submit (script : String) (compile : Bool) (b : Bridge) :
    Except ExecutionError String × Bridge :=
  let (result, executor) := b.executor.run script compile
  (result, { b with executor, journal := b.journal ++ [.ran script compile result] })

/-- Logs the result of a script and tells the listeners. -/
def conclude (script : String) (result : Except ExecutionError String) (b : Bridge) : Bridge :=
  match result with
  | .ok text =>
    (b.log .debug ("Result: " ++ truncated b.config.maxLoggedResultLength text)).tell
      (.finish script (some text))
  | .error e => (b.log .debug ("Execution failed: " ++ e.message)).tell (.finish script none)

def run (script : String) (compile : Bool) (b : Bridge) :
    Except ExecutionError String × Bridge :=
  let b := (b.tell (.start script)).log .debug ("Executing script:\n" ++ script)
  let (result, b) := b.submit script compile
  (result, b.conclude script result)

/-- Runs the text of a script as it is. -/
def execute (script : String) (b : Bridge) : Except ScriptError String × Bridge :=
  let (result, b) := b.run script false
  (result.mapError .execution, b)

/-! ## Applications and classes -/

/-- The reference of an application by its name. -/
def applicationReference (name : String) : String := s!"application \"{name}\""

/-- Registers an application under its name and gives its root object. -/
def register (d : Dictionary) (name : String) (b : Bridge) :
    Except ScriptError BoundReference × Bridge :=
  let application := applicationReference name
  match b.applications.register d application with
  | .error fault => (.error (.config fault), b)
  | .ok (model, applications) =>
    let isNew := (b.applications.get? application).isNone
    let b := { b with applications }
    let interface := model.dictionary.interface
    let message := s!"Registered {interface} with " ++
      Number.showInt model.dictionary.classes.length ++ s!" classes as {application}"
    (.ok { interface, reference := .root application }, if isNew then b.log .debug message else b)

/-- The class cached under a name, or a new one. -/
def typeClass (name code application : Option String) (superclass : Option TypeClass)
    (b : Bridge) : InternedClass × Bridge :=
  let (interned, classes) := b.classes.intern name code application superclass
  (interned, { b with classes })

/-- The interned class with the code or else the name of a class that belongs to no application. -/
def findInterned (b : Bridge) (c : TypeClass) : Option TypeClass :=
  ((c.label.code.bind b.classes.lookup).or (c.label.name.bind b.classes.lookup)).map (·.value)

/-- The known class that a reported one names: a declared one if it belongs to an application, an
interned one otherwise. A class that is not known is given back. -/
def internTypeClass (b : Bridge) (c : TypeClass) : TypeClass :=
  match c.label.application with
  | some _ => b.applications.intern c
  | none => (b.findInterned c).getD c

/-- The warning that interning a class gives rise to. -/
def internWarning? (b : Bridge) (c : TypeClass) : Option String :=
  match b.applications.findDeclared c with
  | .unscoped => none
  | .declared _ => none
  | .undeclared interface => some ("TypeClass " ++ c.render ++ s!" is not declared in {interface}")
  | .unknownApplication application =>
    some s!"No application interface registered for {application}"

/-- Interns a class and logs the warning about it. -/
def intern (c : TypeClass) (b : Bridge) : TypeClass × Bridge :=
  (b.internTypeClass c,
    match b.internWarning? c with
    | some message => b.log .warning message
    | none => b)

end Bridge
end ScriptBridge
