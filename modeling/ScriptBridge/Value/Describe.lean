import ScriptBridge.Text.Quoted
import ScriptBridge.Value.Basic
/-!
The full description of a value, as it stands in diagnostics about values that cannot be encoded:
the constructor with its content in parentheses, the fields of a compound by name.
-/
namespace ScriptBridge

/-- Parts with commas between them. -/
def commaSeparated (parts : List String) : String := ", ".intercalate parts

/-- Something in braces after its name. -/
def describeFields (name : String) (fields : List (String × String)) : String :=
  let parts := fields.map fun (field, content) => field ++ ": " ++ content
  name ++ " \x7b " ++ commaSeparated parts ++ " \x7d"

/-- An optional text. -/
def describeOption (s : Option String) : String :=
  match s with
  | some s => "Some(" ++ Text.quoted s ++ ")"
  | none => "None"

/-- A reference by its fields. -/
def Reference.describe (r : Reference) : String :=
  describeFields "Reference"
    [("object", describeOption r.object), ("application", describeOption r.application)]

/-- A class by its fields, around the description of what it is below. -/
def ClassLabel.describe (l : ClassLabel) (superclass : String) : String :=
  describeFields "TypeClass"
    [("name", describeOption l.name), ("code", describeOption l.code),
      ("application", describeOption l.application),
      ("application_interface", describeOption l.interface), ("superclass", superclass)]

/-- A chain of classes, each inside the one below it. -/
def describeAncestors : List ClassLabel → String
  | [] => "None"
  | label :: rest => "Some(" ++ label.describe (describeAncestors rest) ++ ")"

/-- A class with its ancestors. -/
def TypeClass.describe (c : TypeClass) : String := c.label.describe (describeAncestors c.ancestors)

/-- A payload by its fields. -/
def Data.describe (d : Data) : String :=
  describeFields "Data"
    [("kind", Text.quoted d.kind),
      ("bytes", "[" ++ commaSeparated (d.bytes.map fun b => Number.showInt b.toNat) ++ "]")]

/-- A file by its fields. -/
def FileSpecifier.describe (f : FileSpecifier) : String :=
  describeFields "ScriptFile"
    [("path", Text.quoted f.path), ("object_reference", Text.quoted f.specifier)]

namespace Value

mutual
/-- The full description of a value. -/
def describe : Value → String
  | null => "Null"
  | text s => "Text(" ++ Text.quoted s ++ ")"
  | integer n => "Integer(" ++ Number.showInt n.toInt ++ ")"
  | short n => "Short(" ++ Number.showInt n.toInt ++ ")"
  | long n => "Long(" ++ Number.showInt n.toInt ++ ")"
  | float r => "Float(" ++ r.render ++ ")"
  | double r => "Double(" ++ r.render ++ ")"
  | boolean b => "Boolean(" ++ (if b then "true" else "false") ++ ")"
  | date i => "Date(" ++ i.toCivil.render ++ ")"
  | data d => "Data(" ++ d.describe ++ ")"
  | picture d => "Picture(" ++ d.describe ++ ")"
  | typedData d => "Tdta(" ++ d.describe ++ ")"
  | point p => "Point(" ++ describeFields "Point"
      [("x", Number.showInt p.x.toInt), ("y", Number.showInt p.y.toInt)] ++ ")"
  | rectangle r => "Rectangle(" ++ describeFields "Rectangle"
      [("x", Number.showInt r.x.toInt), ("y", Number.showInt r.y.toInt),
        ("width", Number.showInt r.width.toInt), ("height", Number.showInt r.height.toInt)] ++ ")"
  | rgbColor c => "RgbColor(" ++ describeFields "RgbColor"
      [("red", Number.showInt c.red.toNat), ("green", Number.showInt c.green.toNat),
        ("blue", Number.showInt c.blue.toNat)] ++ ")"
  | file f => "File(" ++ f.describe ++ ")"
  | fileAlias f => "Alias(" ++ f.describe ++ ")"
  | typeClass c => "TypeClass(" ++ c.describe ++ ")"
  | list items => "List([" ++ commaSeparated (describeItems items) ++ "])"
  | map entries => "Map(\x7b" ++ commaSeparated (describeEntries entries) ++ "\x7d)"
  | reference r => "Reference(" ++ r.describe ++ ")"
  | object o => "Object(" ++ describeFields "ObjectRef"
      [("interface", Text.quoted o.interface), ("reference", o.reference.describe)] ++ ")"
  | constant c => "Enum(" ++ describeFields "EnumConstant"
      [("enumeration", Text.quoted c.enumeration), ("name", Text.quoted c.name),
        ("code", describeOption c.code)] ++ ")"
  | id n => "Id(Id(" ++ Number.showInt n.toInt ++ "))"
  | interface name => "Class(" ++ Text.quoted name ++ ")"

/-- The descriptions of the items of a list. -/
def describeItems : List Value → List String
  | [] => []
  | item :: items => item.describe :: describeItems items

/-- The descriptions of the entries of a record. -/
def describeEntries : List (String × Value) → List String
  | [] => []
  | (key, value) :: entries =>
    (Text.quoted key ++ ": " ++ value.describe) :: describeEntries entries
end

end Value
end ScriptBridge
