import ScriptBridge.Bridge.Session
/-!
Calls: what happens when something is asked of an object.

A `Handler` drives one object through one interface. A call reads and changes a `Scene`: the
bridge, the session it is made in, if any, and the handler, which remembers the class of its object
once that has been asked for. A call that fails keeps what it did to the scene until then.

`Call.execute` is the one way a fragment leaves: without a session it is wrapped and run at once;
with one it is wrapped, added to what is pending, and sent only if a result is wanted.
-/
namespace ScriptBridge

/-- What drives an object. -/
structure Handler where
  /-- The object and the interface it is driven through. -/
  object : BoundReference
  /-- Whether elements are addressed by building their specifiers instead of asking for them. -/
  reduces : Bool
  /-- The class of the object, once it has been asked for. -/
  known : Option TypeClass := none
  deriving Repr, Inhabited

namespace Handler

/-- A handler of a bridge. -/
def of (b : Bridge) (object : BoundReference) : Handler :=
  { object, reduces := b.config.reduceScriptExecutions }

/-- The object as diagnostics show it. -/
def render (h : Handler) : String := h.object.reference.render

/-- Whether two handlers drive what diagnostics show as one object. -/
def sameObject (a b : Handler) : Bool := a.render = b.render

def application (h : Handler) : Option String := h.object.reference.application

/-- The words that place something inside the object. -/
def ofClause (h : Handler) : String := h.object.reference.ofClause

end Handler

/-- What a call reads and changes. -/
structure Scene where
  bridge : Bridge
  /-- The session that the call is made in. -/
  session : Option Session
  /-- The handler that is called. -/
  handler : Handler

/-- The fragment that a call builds from a text. -/
def Scene.fragment (scene : Scene) (text : String) : Fragment where
  text := text
  application := scene.handler.application
  globals := scene.bridge.aspectList
  session := scene.session.map Session.aspectList

/-- A call: it may fail, and keeps what it did to the scene when it does. -/
abbrev Call := ExceptT ScriptError (StateM Scene)

namespace Call

def handler : Call Handler := do return (← get).handler

def bridge : Call Bridge := do return (← get).bridge

def changeBridge (change : Bridge → Bridge) : Call Unit :=
  modify fun scene => { scene with bridge := change scene.bridge }

def warn (message : String) : Call Unit := changeBridge (·.log .warning message)

/-- A result that may be an error. -/
def ofExcept {α : Type} (result : Except ScriptError α) : Call α :=
  match result with
  | .ok a => return a
  | .error e => throw e

def decode (target : ValueType) (reference : Reference) : Call Value := do
  ofExcept ((← bridge).decode target reference)

def encode (value : Value) : Call String := do ofExcept ((← bridge).encode value)

/-- The known class that a reported one names. -/
def intern (c : TypeClass) : Call TypeClass := do
  let (interned, b) := (← bridge).intern c
  changeBridge fun _ => b
  return interned

/-- Runs a script at once. -/
def runNow (script : String) : Call String := do
  let (result, b) := (← bridge).run script false
  changeBridge fun _ => b
  ofExcept (result.mapError .execution)

/-- Sends what is pending in a session. -/
def flush (session : Session) : Call String := do
  let (result, session, b) := (← bridge).flushSession session
  modify fun scene => { scene with bridge := b, session := some session }
  ofExcept result

/-- Executes a fragment and decodes its result. Calls without a result, and all calls of a session
that ignores results, are only collected there. -/
def execute (text : String) (returns : ValueType) : Call Value := do
  let scene ← get
  let fragment := scene.fragment text
  changeBridge (·.note (.built fragment))
  match scene.session with
  | none =>
    let result ← runNow fragment.wrapped
    if returns.isVoid then return .null
    decode returns { object := some result, application := fragment.application }
  | some session =>
    let session := session.add fragment.wrapped
    modify fun scene => { scene with session := some session }
    if returns.isVoid || session.ignoresResults then return .null
    let result ← flush session
    decode returns { object := some result, application := fragment.application }

/-! ## Fragments -/

/-- An argument error of a method. -/
def misuse {α : Type} (m : Method) (fault : ArgumentFault) : Call α :=
  throw (.arguments m.name fault)

/-- The model that declares the handler's interface. -/
def model : Call Model := do
  let h ← handler
  match (← bridge).applications.resolve? h.application h.object.interface with
  | some m => return m
  | none => throw (.config (.notRegistered h.object.interface h.application))

/-- The name in scripts of what a method is about. -/
def scriptName (m : Method) : Call String :=
  match m.scriptName with
  | some name => return name
  | none => throw (.config (.methodWithoutName m.name))

/-- The class in scripts of the elements that a method is about. -/
def scriptType (m : Method) : Call String :=
  match m.scriptType with
  | some type => return type
  | none => throw (.config (.methodWithoutType m.name))

/-- The declared plural of elements, if their class declares one. -/
def declaredPlural? (md : Model) (element : ValueType) : Option String :=
  match element with
  | .object interface => (md.dictionary.class? interface).bind ClassEntry.plural
  | _ => none

/-- A plural made from the name of the elements' class, else from the method's declared class. -/
def guessedPlural (md : Model) (element : ValueType) (m : Method) : String :=
  let className := match element with
    | .object interface => (md.dictionary.class? interface).bind ClassEntry.name
    | _ => none
  ((className.or m.scriptType).getD "item") ++ "s"

/-- The plural by which elements are addressed. -/
def plural (md : Model) (element : ValueType) (m : Method) : Call String := do
  match declaredPlural? md element with
  | some plural => return plural
  | none =>
    warn ("Type " ++ element.render ++
      " does not have a defined plural, trying to simply add an 's'")
    return guessedPlural md element m

/-- The words that restrict a list of elements; blank text restricts nothing. -/
def whereClause (m : Method) : Option Value → Call String
  | none => return ""
  | some .null => return ""
  | some (.text s) => return if Text.trimmed s = "" then "" else " where " ++ s
  | some _ => misuse m .filterNotText

/-- The item number, from 1, of an index from 0. -/
def itemNumber (m : Method) (argument : Option Value) : Call String :=
  match argument.bind Value.integer? with
  | none => misuse m .noIndex
  | some index =>
    if index < 0 ∨ index = Int64.maxValue then throw (.indexOutOfBounds index)
    else return Number.showInt (index.toInt + 1)

/-- A name without the word that counters start with, however often it is repeated. -/
def withoutCount : (fuel : Nat) → List Char → List Char
  | 0, name => name
  | fuel + 1, name =>
    match "count".toList.isPrefixOf? name with
    | some rest => withoutCount fuel rest
    | none => name

/-- The names that the getter of a counter's elements may have. -/
def getterNames (m : Method) : List String :=
  let rest := withoutCount m.name.toList.length m.name.toList
  ["get" ++ String.ofList rest, "get_" ++ String.ofList (rest.dropWhile (· == '_'))]

/-- The getter of the elements that a counter counts. -/
def countedGetter (md : Model) (interface : String) (m : Method) : Call Method :=
  match (getterNames m).findSome? (md.method? interface) with
  | some getter => return getter
  | none => misuse m .noGetterToCount

/-- The type of the elements that a getter gives. -/
def elementType : ValueType → ValueType
  | .list element => element
  | other => other

/-- One element: its specifier, or what the application gives for it. -/
def lookup (specifier : String) (returns : ValueType) : Call Value := do
  let h ← handler
  if h.reduces then decode returns { object := some specifier, application := h.application }
  else execute ("return " ++ specifier) returns

/-! ## Methods by kind -/

/-- Reads or writes a property. -/
def invokeProperty (m : Method) (arguments : List Value) : Call Value := do
  let name ← scriptName m
  let place := (← handler).ofClause
  if m.isGetter then execute ("return " ++ name ++ place) m.returns
  else if m.startsWith "set" then
    match arguments with
    | [] => misuse m .setterWithoutValue
    | value :: _ => execute ("set " ++ name ++ place ++ " to " ++ (← encode value)) m.returns
  else misuse m .notAPropertyMethod

/-- All elements, or those that a filter leaves. -/
def elementList (md : Model) (m : Method) (element : ValueType) (arguments : List Value) :
    Call Value := do
  let names ← plural md element m
  let filter ← whereClause m arguments.head?
  execute ("return " ++ names ++ (← handler).ofClause ++ filter) m.returns

/-- The element at an index. -/
def elementAt (md : Model) (m : Method) (arguments : List Value) : Call Value := do
  let item ← itemNumber m arguments.head?
  let names ← plural md m.returns m
  lookup ("item " ++ item ++ " of " ++ names ++ (← handler).ofClause) m.returns

/-- The element with an identifier. -/
def elementWithId (m : Method) (arguments : List Value) : Call Value := do
  match arguments.head? with
  | some (.id n) =>
    let type ← scriptType m
    lookup (type ++ " id " ++ Number.showInt n.toInt ++ (← handler).ofClause) m.returns
  | _ => misuse m .noId

/-- Replaces the element at an index. -/
def setElement (md : Model) (m : Method) (arguments : List Value) : Call Value := do
  let item ← itemNumber m arguments.head?
  match (arguments[1]?.bind Value.reference?).bind Reference.object with
  | none => misuse m .noElementReference
  | some target =>
    let element := (m.parameters[1]?.map Parameter.valueType).getD .reference
    let names ← plural md element m
    execute ("set item " ++ item ++ " of " ++ names ++ (← handler).ofClause ++
      " to (" ++ target ++ ")") m.returns

def countElements (md : Model) (m : Method) (arguments : List Value) : Call Value := do
  let h ← handler
  let getter ← countedGetter md h.object.interface m
  let names ← plural md (elementType getter.returns) getter
  let filter ← whereClause m arguments.head?
  execute ("count " ++ names ++ h.ofClause ++ filter) m.returns

/-- Reads elements, in the form that the declared types select. -/
def getElements (md : Model) (m : Method) (arguments : List Value) : Call Value :=
  let parameter := m.parameters.head?.map Parameter.valueType
  match m.returns, parameter with
  | .list element, none => elementList md m element arguments
  | .list element, some .text => elementList md m element arguments
  | _, some .integer => elementAt md m arguments
  | _, some .short => elementAt md m arguments
  | _, some .long => elementAt md m arguments
  | _, some (.named "id") => elementWithId m arguments
  | _, _ => misuse m .unsupportedGetter

/-- Reads, replaces or counts elements. -/
def invokeElement (md : Model) (m : Method) (arguments : List Value) : Call Value :=
  if m.startsWith "get" then getElements md m arguments
  else if m.startsWith "set" then setElement md m arguments
  else if m.startsWith "count" then countElements md m arguments
  else misuse m .notAnElementMethod

/-- The words of a command's arguments; one that is missing leaves out its keyword too. -/
def argumentWords : List Value → List Parameter → Call (List String)
  | value :: values, parameter :: parameters => do
    if value.isNull then argumentWords values parameters
    else
      let text ← encode value
      return parameter.keyword.toList ++ [text] ++ (← argumentWords values parameters)
  | _, _ => return []

def invokeCommand (m : Method) (arguments : List Value) : Call Value := do
  if m.parameters.length < arguments.length then
    misuse m (.tooMany arguments.length m.parameters.length)
  else
    let name ← scriptName m
    let words ← argumentWords arguments m.parameters
    execute (" ".intercalate (name :: words)) m.returns

def invokeMake (m : Method) (arguments : List Value) : Call Value := do
  match arguments with
  | [.interface interface] =>
    match (← bridge).applications.className? (← handler).application interface with
    | some className => execute ("make " ++ className) (.object interface)
    | none => throw (.config (.makeWithoutClassName interface))
  | _ => misuse m .notOneInterface

/-- Replaces a class that an application reported by the declared one. -/
def internResult : Value → Call Value
  | .typeClass c =>
    if c.label.application.isSome then do return .typeClass (← intern c) else return .typeClass c
  | other => return other

def invoke (method : String) (arguments : List Value) : Call Value := do
  let md ← model
  let h ← handler
  match md.method? h.object.interface method with
  | none => throw (.unknownMethod h.object.interface method)
  | some m =>
    let value ← match m.kind with
      | .property => invokeProperty m arguments
      | .element => invokeElement md m arguments
      | .command => invokeCommand m arguments
      | .make => invokeMake m arguments
    internResult value

/-! ## Classes and properties of the object -/

/-- The class of the object, asked for once. -/
def objectClass : Call TypeClass := do
  let h ← handler
  match h.known with
  | some c => return c
  | none =>
    match ← execute ("return class" ++ h.ofClause) .typeClass with
    | .typeClass reported =>
      let c ← intern reported
      modify fun scene => { scene with handler := { scene.handler with known := some c } }
      return c
    | other => throw (.config (.noClassReported h.object other))

/-- Whether the object is of a class or of one below it. -/
def isInstanceOf (c : TypeClass) : Call Bool := do
  let wanted ← intern c
  let actual ← objectClass
  return wanted.isAncestorOf actual

/-- The key under which a record holds the class of its object when it holds it by chevron. -/
def classProperty : String := "«property pcls»"

/-- The trimmed text that a record holds under a key. -/
def reported? (record : List (String × Value)) (key : String) : Option String :=
  (((record.lookup key).bind Value.reference?).bind Reference.object).map Text.trimmed

/-- The class of the object that a record describes: the one it holds, by chevron or by name, or the
class that the application reports. An application that reports a record means the interface. -/
def recordClass (md : Model) (record : List (String × Value)) : Call TypeClass := do
  let h ← handler
  match reported? record classProperty with
  | some code => intern { label := { code := some code, application := h.application } }
  | none =>
    match reported? record "class" with
    | some name => intern { label := { name := some name, application := h.application } }
    | none =>
      let c ← objectClass
      if c.chevron?.any (·.code = "reco") then
        match md.typeClass? h.object.interface with
        | some declared => return declared
        | none => throw (.config (.noClassOfInterface h.object.interface))
      else return c

/-- The record of the object's properties: the object itself if it is a record literal, or what the
application answers; nothing if that is no reference. -/
def propertyRecord : Call (Option Reference) := do
  let h ← handler
  if h.object.reference.isRecord then return some h.object.reference
  else
    match ← execute ("return properties" ++ h.ofClause) .record with
    | .reference r => return some r
    | _ => return none

/-- One entry of the properties: decoded as its property declares, under the property's key; or as
it is, under its own key, if no property is declared for it. -/
def resolveEntry (md : Model) (c : TypeClass) (key : String) (value : Value) :
    Call (String × Value) := do
  if (md.interfaceFor? c).isNone then
    warn ("Type class " ++ c.render ++ s!" of property {key} is not declared in " ++
      md.dictionary.interface)
  match md.property? c key, value.reference? with
  | some property, some reference => return (property.key, ← decode property.valueType reference)
  | _, _ =>
    warn s!"Failed to translate property named \"{key}\""
    return (key, value)

/-- The entries of the properties, each one resolved. -/
def resolveEntries (md : Model) (c : TypeClass) :
    List (String × Value) → Call (List (String × Value))
  | [] => return []
  | (key, value) :: entries => do
    let entry ← resolveEntry md c key value
    return entry :: (← resolveEntries md c entries)

/-- The properties of the object by their keys. -/
def properties : Call (List (String × Value)) := do
  match ← propertyRecord with
  | none => return []
  | some record =>
    let entries := (← decode .map record).entries?.getD []
    let h ← handler
    match (← bridge).applications.resolve? h.application h.object.interface with
    | none =>
      warn ("No metadata registered for " ++ h.render ++ ", returning raw properties")
      return entries
    | some md =>
      let c ← recordClass md entries
      return recordOf (← resolveEntries md c entries)

/-- Decodes the object itself as another type. -/
def cast (target : ValueType) : Call Value := do decode target (← handler).object.reference

end Call
end ScriptBridge
