import ScriptBridge.Calendar.Civil
import ScriptBridge.Number.Real
import ScriptBridge.Reference
import ScriptBridge.Text.Literal
import ScriptBridge.TypeClass.Basic
import ScriptBridge.Value.Type
/-!
Values: what the answers of an application are decoded into, and what the arguments of a call are
encoded from.

Each value has a natural type. A list takes the type of its first item, and the empty list counts
as a list of references. Records are kept as association lists in the order of their keys; a key
occurs once.
-/
namespace ScriptBridge

/-- A binary payload with its four-character kind. -/
structure Data where
  /-- The kind, such as `TIFF`. -/
  kind : String
  bytes : List UInt8
  deriving DecidableEq, Repr, Inhabited

/-- A point of the screen. -/
structure Point where
  /-- The horizontal coordinate. -/
  x : Int32
  /-- The vertical coordinate. -/
  y : Int32
  deriving DecidableEq, Repr, Inhabited

/-- A rectangle by its origin and size. -/
structure Rectangle where
  /-- The left edge. -/
  x : Int32
  /-- The top edge. -/
  y : Int32
  width : Int32
  height : Int32
  deriving DecidableEq, Repr, Inhabited

/-- A color of 16 bits a channel. -/
structure Color where
  red : UInt16
  green : UInt16
  blue : UInt16
  deriving DecidableEq, Repr, Inhabited

/-- A file: where it is, and the specifier that names it in scripts. -/
structure FileSpecifier where
  path : String
  /-- The specifier text. -/
  specifier : String
  deriving DecidableEq, Repr, Inhabited

/-- The specifier of the file at a path. -/
def FileSpecifier.ofPath (path : String) : FileSpecifier :=
  { path, specifier := "(POSIX file " ++ String.ofList (Literal.quote path.toList) ++ ")" }

/-- A constant of an enumeration. -/
structure EnumConstant where
  enumeration : String
  /-- The name of the constant in scripts. -/
  name : String
  /-- The four-character code. -/
  code : Option String
  deriving DecidableEq, Repr, Inhabited

inductive Value where
  | null
  | text (s : String)
  | integer (n : Int32)
  | short (n : Int16)
  | long (n : Int64)
  | float (r : Single)
  | double (r : Double)
  | boolean (b : Bool)
  | date (i : Instant)
  | data (d : Data)
  | picture (d : Data)
  | typedData (d : Data)
  | point (p : Point)
  | rectangle (r : Rectangle)
  | rgbColor (c : Color)
  | file (f : FileSpecifier)
  | fileAlias (f : FileSpecifier)
  | typeClass (c : TypeClass)
  | list (items : List Value)
  | map (entries : List (String × Value))
  | reference (r : Reference)
  | object (o : BoundReference)
  | constant (c : EnumConstant)
  | id (n : Int64)
  | interface (name : String)
  deriving Inhabited

namespace Value

/-- The type that a value has by itself. -/
def valueType : Value → ValueType
  | null => .void
  | text _ => .text
  | integer _ => .integer
  | short _ => .short
  | long _ => .long
  | float _ => .float
  | double _ => .double
  | boolean _ => .boolean
  | date _ => .date
  | data _ => .data
  | picture _ => .picture
  | typedData _ => .typedData
  | point _ => .point
  | rectangle _ => .rectangle
  | rgbColor _ => .rgbColor
  | file _ => .file
  | fileAlias _ => .fileAlias
  | typeClass _ => .typeClass
  | list [] => .list .reference
  | list (first :: _) => .list first.valueType
  | map _ => .map
  | reference _ => .reference
  | object o => .object o.interface
  | constant c => .enumeration c.enumeration
  | id _ => .named "id"
  | interface _ => .named "class"

/-- Whether a value is the missing one. -/
def isNull : Value → Bool
  | null => true
  | _ => false

/-- The text of a text value. -/
def text? : Value → Option String
  | text s => some s
  | _ => none

/-- The number of a value of any integer type. -/
def integer? : Value → Option Int64
  | integer n => some n.toInt64
  | short n => some n.toInt64
  | long n => some n
  | _ => none

/-- The number of a value of either real type. -/
def real? : Value → Option Double
  | float r => some r.widen
  | double r => some r
  | _ => none

/-- The truth of a boolean value. -/
def boolean? : Value → Option Bool
  | boolean b => some b
  | _ => none

/-- The items of a list. -/
def items? : Value → Option (List Value)
  | list items => some items
  | _ => none

/-- The entries of a record. -/
def entries? : Value → Option (List (String × Value))
  | map entries => some entries
  | _ => none

/-- The reference of a value that is bound to an interface. -/
def object? : Value → Option BoundReference
  | object o => some o
  | _ => none

/-- The reference under a value, bound or not. -/
def reference? : Value → Option Reference
  | reference r => some r
  | object o => some o.reference
  | _ => none

end Value

/-! ## Records in the order of their keys -/

/-- Sets a key of a record. -/
def setKey {α : Type} (key : String) (value : α) : List (String × α) → List (String × α)
  | [] => [(key, value)]
  | entry :: rest =>
    if key < entry.1 then (key, value) :: entry :: rest
    else if key = entry.1 then (key, value) :: rest
    else entry :: setKey key value rest

/-- The record of entries given in any order; of entries with one key the last counts. -/
def recordOf {α : Type} (entries : List (String × α)) : List (String × α) :=
  entries.foldl (fun record entry => setKey entry.1 entry.2 record) []

end ScriptBridge
