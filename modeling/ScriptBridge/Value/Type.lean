/-!
The types that values are decoded into.

A dictionary declares a `ValueType` for every argument and result. Besides the types of the script
language there are lists, records kept as maps of raw references, the enumerations and interfaces
that an application declares, and types named by whoever adds a codec for them.
-/
namespace ScriptBridge

/-- The target of a decoding. -/
inductive ValueType where
  | void
  | text
  | integer
  | short
  | long
  | float
  | double
  | boolean
  | date
  | data
  | picture
  | typedData
  | point
  | rectangle
  | rgbColor
  | file
  | fileAlias
  | typeClass
  | record
  | reference
  | list (element : ValueType)
  | map
  | enumeration (name : String)
  | object (interface : String)
  | named (name : String)
  deriving DecidableEq, Repr, Inhabited

namespace ValueType

/-- The type as diagnostics show it. -/
def render : ValueType → String
  | void => "Void"
  | text => "Text"
  | integer => "Integer"
  | short => "Short"
  | long => "Long"
  | float => "Float"
  | double => "Double"
  | boolean => "Boolean"
  | date => "Date"
  | data => "Data"
  | picture => "Picture"
  | typedData => "Tdta"
  | point => "Point"
  | rectangle => "Rectangle"
  | rgbColor => "RgbColor"
  | file => "File"
  | fileAlias => "Alias"
  | typeClass => "TypeClass"
  | record => "Record"
  | reference => "Reference"
  | list element => "list of " ++ element.render
  | map => "Map"
  | enumeration name => "enumeration " ++ name
  | object interface => "interface " ++ interface
  | named name => name

/-- Whether a call of this type has no result. -/
def isVoid (t : ValueType) : Bool := t = .void

end ValueType
end ScriptBridge
