import ScriptBridge.Dictionary.Basic
import ScriptBridge.Json.Parse
import ScriptBridge.Json.Print
import ScriptBridge.Json.Structure
/-!
Dictionaries as JSON.

Types without content are written by name, the others as an object of name and content. Structures
are written with all their fields; what is read may leave out the fields that have a value anyway.
-/
namespace ScriptBridge

/-! ## Types -/

namespace ValueType

/-- The types without content, by name. -/
def plainNames : List (String × ValueType) :=
  [("void", .void), ("text", .text), ("integer", .integer), ("short", .short), ("long", .long),
    ("float", .float), ("double", .double), ("boolean", .boolean), ("date", .date),
    ("data", .data), ("picture", .picture), ("tdta", .typedData), ("point", .point),
    ("rectangle", .rectangle), ("rgb_color", .rgbColor), ("file", .file), ("alias", .fileAlias),
    ("type_class", .typeClass), ("record", .record), ("reference", .reference), ("map", .map)]

def toJson : ValueType → Json
  | void => .ofText "void"
  | text => .ofText "text"
  | integer => .ofText "integer"
  | short => .ofText "short"
  | long => .ofText "long"
  | float => .ofText "float"
  | double => .ofText "double"
  | boolean => .ofText "boolean"
  | date => .ofText "date"
  | data => .ofText "data"
  | picture => .ofText "picture"
  | typedData => .ofText "tdta"
  | point => .ofText "point"
  | rectangle => .ofText "rectangle"
  | rgbColor => .ofText "rgb_color"
  | file => .ofText "file"
  | fileAlias => .ofText "alias"
  | typeClass => .ofText "type_class"
  | record => .ofText "record"
  | reference => .ofText "reference"
  | map => .ofText "map"
  | list element => .ofMembers [("list", element.toJson)]
  | enumeration name => .ofMembers [("enumeration", .ofText name)]
  | object interface => .ofMembers [("object", .ofText interface)]
  | named name => .ofMembers [("named", .ofText name)]

/-- Reads a type; the room bounds how deep lists may be nested. -/
def ofJson? : (room : Nat) → Json → Option ValueType
  | _, .string (some name) => plainNames.lookup name
  | room + 1, .object [(some name, content)] =>
    match plainNames.lookup name, content with
    | some type, .null => some type
    | some _, _ => none
    | none, content =>
      if name = "list" then (ofJson? room content).map .list
      else if name = "enumeration" then content.text?.map .enumeration
      else if name = "object" then content.text?.map .object
      else if name = "named" then content.text?.map .named
      else none
  | _, _ => none

/-- The type that a JSON text spells. -/
def parse? (text : String) : Option ValueType := (Json.parse? text).bind (ofJson? Json.depthLimit)

end ValueType

/-! ## Methods -/

/-- The name of a kind of method. -/
def MethodKind.name : MethodKind → String
  | property => "property"
  | element => "element"
  | command => "command"
  | make => "make"

/-- The kind of method of a name. -/
def MethodKind.ofName? (name : String) : Option MethodKind :=
  [property, element, command, make].find? (·.name = name)

def MethodKind.ofJson? (room : Nat) (j : Json) : Option MethodKind :=
  match Json.choice? room j with
  | some (name, none) => ofName? name
  | some (name, some (_, .null)) => ofName? name
  | _ => none

def Parameter.toJson (p : Parameter) : Json :=
  .ofMembers [("keyword", .ofOption p.keyword), ("value_type", p.valueType.toJson)]

def Parameter.ofJson? (room : Nat) (j : Json) : Option Parameter :=
  match Json.fields? ["keyword", "value_type"] room j with
  | some (room, [keyword, valueType]) => do
    let keyword ← Json.defaulted none Json.option? keyword
    let valueType ← Json.required (ValueType.ofJson? room) valueType
    some { keyword, valueType }
  | _ => none

def Method.toJson (m : Method) : Json :=
  .ofMembers [("name", .ofText m.name), ("kind", .ofText m.kind.name),
    ("script_name", .ofOption m.scriptName), ("code", .ofOption m.code),
    ("script_type", .ofOption m.scriptType),
    ("parameters", .array (m.parameters.map Parameter.toJson)), ("returns", m.returns.toJson)]

def Method.ofJson? (room : Nat) (j : Json) : Option Method :=
  match Json.fields? ["name", "kind", "script_name", "code", "script_type", "parameters",
      "returns"] room j with
  | some (room, [name, kind, scriptName, code, scriptType, parameters, returns]) => do
    let name ← Json.required Json.text? name
    let kind ← Json.required (MethodKind.ofJson? room) kind
    let scriptName ← Json.defaulted none Json.option? scriptName
    let code ← Json.defaulted none Json.option? code
    let scriptType ← Json.defaulted none Json.option? scriptType
    let parameters ← Json.defaulted [] (Json.list? Parameter.ofJson? room) parameters
    let returns ← Json.defaulted .void (ValueType.ofJson? room) returns
    some { name, kind, scriptName, code, scriptType, parameters, returns }
  | _ => none

/-! ## Classes and enumerations -/

def ClassEntry.toJson (c : ClassEntry) : Json :=
  .ofMembers [("interface", .ofText c.interface), ("name", .ofOption c.name),
    ("code", .ofOption c.code), ("plural", .ofOption c.plural),
    ("superclass", .ofOption c.superclass), ("methods", .array (c.methods.map Method.toJson))]

def ClassEntry.ofJson? (room : Nat) (j : Json) : Option ClassEntry :=
  match Json.fields? ["interface", "name", "code", "plural", "superclass", "methods"] room j with
  | some (room, [interface, name, code, plural, superclass, methods]) => do
    let interface ← Json.required Json.text? interface
    let name ← Json.defaulted none Json.option? name
    let code ← Json.defaulted none Json.option? code
    let plural ← Json.defaulted none Json.option? plural
    let superclass ← Json.defaulted none Json.option? superclass
    let methods ← Json.defaulted [] (Json.list? Method.ofJson? room) methods
    some { interface, name, code, plural, superclass, methods }
  | _ => none

def ConstantEntry.toJson (c : ConstantEntry) : Json :=
  .ofMembers [("name", .ofText c.name), ("script_name", .ofText c.scriptName),
    ("code", .ofOption c.code), ("description", .ofOption c.description)]

def ConstantEntry.ofJson? (room : Nat) (j : Json) : Option ConstantEntry :=
  match Json.fields? ["name", "script_name", "code", "description"] room j with
  | some (_, [name, scriptName, code, description]) => do
    let name ← Json.required Json.text? name
    let scriptName ← Json.required Json.text? scriptName
    let code ← Json.defaulted none Json.option? code
    let description ← Json.defaulted none Json.option? description
    some { name, scriptName, code, description }
  | _ => none

def Enumeration.toJson (e : Enumeration) : Json :=
  .ofMembers [("name", .ofText e.name),
    ("constants", .array (e.constants.map ConstantEntry.toJson))]

def Enumeration.ofJson? (room : Nat) (j : Json) : Option Enumeration :=
  match Json.fields? ["name", "constants"] room j with
  | some (room, [name, constants]) => do
    let name ← Json.required Json.text? name
    let constants ← Json.required (Json.list? ConstantEntry.ofJson? room) constants
    some { name, constants }
  | _ => none

/-! ## Dictionaries -/

def Dictionary.toJson (d : Dictionary) : Json :=
  .ofMembers [("interface", .ofText d.interface),
    ("classes", .array (d.classes.map ClassEntry.toJson)),
    ("enumerations", .array (d.enumerations.map Enumeration.toJson))]

def Dictionary.ofJson? (room : Nat) (j : Json) : Option Dictionary :=
  match Json.fields? ["interface", "classes", "enumerations"] room j with
  | some (room, [interface, classes, enumerations]) => do
    let interface ← Json.required Json.text? interface
    let classes ← Json.required (Json.list? ClassEntry.ofJson? room) classes
    let enumerations ← Json.defaulted [] (Json.list? Enumeration.ofJson? room) enumerations
    some { interface, classes, enumerations }
  | _ => none

def Dictionary.render (d : Dictionary) : String := d.toJson.render

/-- The dictionary that a JSON text spells. -/
def Dictionary.parse? (text : String) : Option Dictionary :=
  (Json.parse? text).bind (ofJson? Json.depthLimit)

end ScriptBridge
