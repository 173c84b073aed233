import ScriptBridge.Error
/-!
Codecs: the conversion between one type of value and its text in scripts.

A codec declares the type it is for and the classes of the script language that it stands for. It
takes the values whose natural type is its own.
-/
namespace ScriptBridge

/-- The conversion of one type of value. -/
structure Codec where
  valueType : ValueType
  /-- The classes of the script language that values of this type have. -/
  scriptTypes : List TypeClass
  /-- Reads the object half of a reference. -/
  decode : Reference → Except ScriptError Value
  encode : Value → Except ScriptError String

/-- Whether a codec writes a value. -/
def Codec.accepts (codec : Codec) (value : Value) : Bool := value.valueType = codec.valueType

/-- The words for a value that is not there. -/
def missingValue : String := "missing value"

/-- Whether an object half is the answer that a value is missing. -/
def isMissingValue (object : Option String) : Bool :=
  object.map Text.trimmed = some missingValue

/-- Whether an object half holds nothing: no text, blank text, or a word for nothing. -/
def isMissing (object : Option String) : Bool :=
  match object with
  | none => true
  | some text =>
    let text := Text.trimmed text
    text = "" || text = "null" || text = missingValue

end ScriptBridge
