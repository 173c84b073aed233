import ScriptBridge.Chevron
import ScriptBridge.Number.Integer
import ScriptBridge.Value.Describe
/-!
What can go wrong, as causes, and the one wording of each.

`FormatError` is about text that does not have the form it should have, `ExecutionError` about
running a script, and `ScriptError` about everything a call can meet. A decoding that fails on the
form of an answer says what was being decoded into what.
-/
namespace ScriptBridge

/-- The compounds written as numbers in braces. -/
inductive TupleKind where
  | point
  | rectangle
  | rgbColor
  deriving DecidableEq, Repr

/-- The name of a compound. -/
def TupleKind.name : TupleKind → String
  | point => "point"
  | rectangle => "rectangle"
  | rgbColor => "RGB color"

/-- Why a text is not a record. -/
inductive RecordFault where
  | unbalanced
  | noKey (entry : String)
  deriving DecidableEq, Repr

/-- The wording of a record's fault. -/
def RecordFault.message : RecordFault → String
  | unbalanced => "unbalanced braces or quotes"
  | noKey entry => s!"entry '{entry}' has no key"

/-- Text of the wrong form. -/
inductive FormatError where
  | chevron (text : String) (fault : Chevron.Fault)
  | list (text : String)
  | record (text : String) (fault : RecordFault)
  | number (text : String) (fault : Number.Fault)
  | boolean (text : String)
  | date (text : String)
  | data (text : String)
  | tuple (kind : TupleKind) (text : String)
  deriving DecidableEq, Repr

/-- The wording of a format error. -/
def FormatError.message : FormatError → String
  | chevron text fault => s!"Malformed chevron '{text}': " ++ fault.message
  | list text => s!"Malformed list '{text}'"
  | record text fault => s!"Malformed record '{text}': " ++ fault.message
  | number text fault => s!"Malformed number '{text}': " ++ fault.message
  | boolean text => s!"Malformed boolean '{text}'"
  | date text => s!"Unparseable date '{text}'"
  | data text => s!"Malformed data literal '{text}'"
  | tuple kind text => "Malformed " ++ kind.name ++ s!" '{text}'"

/-- A failure to run a script. -/
inductive ExecutionError where
  | script (diagnostic source : String)
  | badScriptingAddition (diagnostic : String) (offenders : List String)
  | notStarted (program : String)
  | io
  deriving DecidableEq, Repr

/-- The wording of an execution error. The system's own words for a failed start are not known
here and left out. -/
def ExecutionError.message : ExecutionError → String
  | script diagnostic source => s!"{diagnostic}\nScript:\n{source}"
  | badScriptingAddition diagnostic _ => s!"Bad scripting addition: {diagnostic}"
  | notStarted program => "Failed to launch " ++ Text.quoted program
  | io => "IO error"

/-- Missing or contradictory declarations. -/
inductive ConfigFault where
  /-- The application's own interface is not one of its classes. -/
  | applicationNotDeclared (interface : String)
  | superclassNotDeclared (superclass interface : String)
  | superclassCycle (interface : String)
  | notRegistered (interface : String) (application : Option String)
  | undeclaredInterface (reference : Reference) (interface : String)
  | undeclaredEnumeration (name : String)
  | notAConstant (text enumeration : String)
  | noDecoder (target : ValueType) (reference : Reference)
  | noEncoder (type : ValueType)
  /-- A codec was given a value it does not encode; it is named as diagnostics name it. -/
  | notEncodable (codec : String) (value : Value)
  | notAReference (value : Value)
  | anonymousClass
  | noClassName (interface : String)
  | makeWithoutClassName (interface : String)
  | methodWithoutName (method : String)
  | methodWithoutType (method : String)
  | noClassReported (object : BoundReference) (answer : Value)
  | noClassOfInterface (interface : String)

/-- The wording of a fault in the declarations. -/
def ConfigFault.message : ConfigFault → String
  | applicationNotDeclared interface =>
    s!"application interface '{interface}' is not among its declared classes"
  | superclassNotDeclared superclass interface =>
    s!"superclass '{superclass}' of '{interface}' is not declared"
  | superclassCycle interface => s!"superclass chain of '{interface}' is cyclic"
  | notRegistered interface application =>
    s!"interface '{interface}' is not registered for " ++ application.getD "any application"
  | undeclaredInterface reference interface =>
    "cannot bind " ++ reference.render ++ s!" to undeclared interface '{interface}'"
  | undeclaredEnumeration name => s!"enumeration '{name}' is not declared"
  | notAConstant text enumeration => s!"'{text}' is not a constant of enumeration '{enumeration}'"
  | noDecoder target reference =>
    "no codec registered for " ++ target.render ++ ", cannot decode " ++ reference.render
  | noEncoder type => "no codec registered for " ++ type.render
  | notEncodable codec value => s!"{codec} codec cannot encode " ++ value.describe
  | notAReference value => "cannot encode " ++ value.describe ++ " as a reference"
  | anonymousClass => "type class has neither name nor code"
  | noClassName interface => s!"interface '{interface}' declares no class name"
  | makeWithoutClassName interface =>
    s!"make failed, interface '{interface}' declares no class name"
  | methodWithoutName method => s!"method '{method}' declares no name"
  | methodWithoutType method => s!"method '{method}' declares no type"
  | noClassReported object answer =>
    object.reference.render ++ " reported no class: " ++ answer.describe
  | noClassOfInterface interface => s!"failed to look up the class of interface '{interface}'"

/-- Why the arguments of a call do not fit its method. -/
inductive ArgumentFault where
  | setterWithoutValue
  | notAPropertyMethod
  | noId
  | unsupportedGetter
  | noElementReference
  | notAnElementMethod
  | tooMany (given declared : Nat)
  | notOneInterface
  | filterNotText
  | noIndex
  | noGetterToCount
  deriving DecidableEq, Repr

/-- The wording of an argument fault. -/
def ArgumentFault.message : ArgumentFault → String
  | setterWithoutValue => "setter needs a value"
  | notAPropertyMethod => "property methods must start with get, is or set"
  | noId => "expected an id"
  | unsupportedGetter => "unsupported element getter signature"
  | noElementReference => "element setter needs a reference"
  | notAnElementMethod => "element methods must start with get, set or count"
  | tooMany given declared =>
    Number.showInt given ++ " arguments given, " ++ Number.showInt declared ++ " declared"
  | notOneInterface => "make takes exactly one interface"
  | filterNotText => "filter must be script text"
  | noIndex => "expected an index"
  | noGetterToCount => "no matching element getter"

/-- Everything a call can meet. -/
inductive ScriptError where
  | format (error : FormatError)
  | execution (error : ExecutionError)
  | config (fault : ConfigFault)
  | decode (target : ValueType) (reference : Reference) (source : FormatError)
  | indexOutOfBounds (index : Int64)
  | unknownMethod (interface method : String)
  | arguments (method : String) (fault : ArgumentFault)

def ScriptError.message : ScriptError → String
  | format error => "Format error: " ++ error.message
  | execution error => "Execution error: " ++ error.message
  | config fault => "Configuration error: " ++ fault.message
  | decode target reference source =>
    "Failed to decode '" ++ reference.render ++ "' as " ++ target.render ++ ": " ++ source.message
  | indexOutOfBounds index =>
    "Index " ++ Number.showInt index.toInt ++ " is out of bounds, element indices start at 0"
  | unknownMethod interface method => s!"Interface '{interface}' declares no method '{method}'"
  | arguments method fault => s!"Invalid arguments for '{method}': " ++ fault.message

end ScriptBridge
