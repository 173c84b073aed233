import ScriptBridge.Codec.Builtin
import ScriptBridge.Dictionary.Registry
import ScriptBridge.Group
import ScriptBridge.Text.Casing
/-!
The chain of codecs, and what it converts by itself.

The first codec of a type converts it. Lists, records, enumerations and interfaces are converted
here, because they recurse or need the registered applications; a codec that is added for one of
these types takes its place. Records are decoded only to references, one an entry, since the types
of the entries are not known yet.

An answer that a codec finds malformed becomes an error that says what was decoded into what.
-/
namespace ScriptBridge

/-- Something installed under a number by which it can be removed. -/
structure Installed (α : Type) where
  handle : Nat
  item : α

/-- The list without what is installed under a number. -/
def removeInstalled {α : Type} (handle : Nat) (installed : List (Installed α)) :
    List (Installed α) :=
  installed.filter (·.handle != handle)

namespace Codec

/-- The first codec of a type. -/
def find? (codecs : List Codec) (target : ValueType) : Option Codec :=
  codecs.find? (·.valueType = target)

/-- Whether a class has a name or code, in any letter case. -/
def isNamed (wanted : List Char) (c : TypeClass) : Bool :=
  let isWanted (s : Option String) := s.any fun s => Text.lowerText s.toList == wanted
  isWanted c.label.name || isWanted c.label.code

/-- The type of the first codec that stands for a class of the script language. -/
def valueTypeFor? (codecs : List Codec) (scriptType : String) : Option ValueType :=
  let wanted := Text.lowerText (Text.trim scriptType.toList)
  (codecs.find? fun codec => codec.scriptTypes.any (isNamed wanted)).map Codec.valueType

/-! ## Decoding -/

/-- The code in a constant such as `«constant ****ask »`. -/
def constantCode? (s : List Char) : Option String :=
  (Text.between? "«constant ".toList ['»'] s).map fun code =>
    String.ofList (code.dropWhile (· == '*'))

/-- Whether a text names a constant: by name, by code, or by a constant that holds the code. -/
def isConstant (text : String) (code : Option String) (c : ConstantEntry) : Bool :=
  c.scriptName == text || c.code == some text || (code.isSome && c.code == code)

/-- Decodes a constant of an enumeration. -/
def decodeConstant (applications : Registry) (enumeration : String) (reference : Reference) :
    Except ScriptError Value :=
  let text := Text.trimmed reference.objectText
  if isMissing (some text) then .ok .null
  else
    match applications.enumeration? reference.application enumeration with
    | none => .error (.config (.undeclaredEnumeration enumeration))
    | some e =>
      match e.constants.find? (isConstant text (constantCode? text.toList)) with
      | some c =>
        .ok (.constant { enumeration := e.name, name := c.scriptName, code := c.code })
      | none => .error (.config (.notAConstant text enumeration))

/-- Decodes an object of an interface. -/
def decodeObject (applications : Registry) (interface : String) (reference : Reference) :
    Except ScriptError Value :=
  if isMissing reference.object then .ok .null
  else if applications.hasInterface reference.application interface then
    .ok (.object { interface, reference })
  else .error (.config (.undeclaredInterface reference interface))

/-- Decodes a record into references. -/
def decodeMap (reference : Reference) : Except ScriptError Value :=
  match reference.object with
  | none => .ok (.map [])
  | some object =>
    match Group.splitRecord object with
    | .error e => .error (.format e)
    | .ok entries =>
      let item (entry : String × String) := (entry.1, Value.reference (reference.sibling entry.2))
      .ok (.map (recordOf (entries.map item)))

/-- Decodes by a codec; a malformed answer is reported together with what it was decoded into. -/
def decodeWith (codec : Codec) (target : ValueType) (reference : Reference) :
    Except ScriptError Value :=
  match codec.decode reference with
  | .error (.format source) => .error (.decode target reference source)
  | result => result

/-- Whether an object half is there and blank. -/
def isBlankObject (object : Option String) : Bool := object.any fun s => Text.trimmed s = ""

/-- Decodes a reference as a type. -/
def decodeAs (codecs : List Codec) (applications : Registry) :
    (target : ValueType) → Reference → Except ScriptError Value
  | target, reference =>
    match find? codecs target with
    | some codec => decodeWith codec target reference
    | none =>
      match target with
      | .void => .ok .null
      | .list element =>
        match reference.object with
        | none => .ok .null
        | some object =>
          match Group.splitList object with
          | .error e => .error (.format e)
          | .ok items =>
            let decodeItem item := decodeAs codecs applications element (reference.sibling item)
            (items.mapM decodeItem).map .list
      | .map => decodeMap reference
      | .enumeration name =>
        if isBlankObject reference.object then .ok .null
        else decodeConstant applications name reference
      | .object interface =>
        if isBlankObject reference.object then .ok .null
        else decodeObject applications interface reference
      | other =>
        if isBlankObject reference.object then .ok .null
        else .error (.config (.noDecoder other reference))

/-! ## Encoding -/

/-- Encodes a value that is no list, record or name by the first codec that takes it. -/
def encodeWith (codecs : List Codec) (value : Value) : Except ScriptError String :=
  match codecs.find? (·.accepts value) with
  | some codec => codec.encode value
  | none => .error (.config (.noEncoder value.valueType))

def inBraces (parts : List String) : String := "\x7b" ++ ", ".intercalate parts ++ "\x7d"

mutual
def encodeAs (codecs : List Codec) (applications : Registry) : Value → Except ScriptError String
  | .null => .ok missingValue
  | .list items => (encodeItems codecs applications items).map inBraces
  | .map entries => (encodeEntries codecs applications entries).map inBraces
  | .reference r => .ok r.scriptText
  | .object o => .ok o.reference.scriptText
  | .constant c => .ok c.name
  | .id n => .ok ("id " ++ Number.showInt n.toInt)
  | .interface name =>
    match applications.className? none name with
    | some className => .ok className
    | none => .error (.config (.noClassName name))
  | other => encodeWith codecs other

/-- Encodes the items of a list; the first failure counts. -/
def encodeItems (codecs : List Codec) (applications : Registry) :
    List Value → Except ScriptError (List String)
  | [] => .ok []
  | item :: items =>
    match encodeAs codecs applications item with
    | .error e => .error e
    | .ok text => (encodeItems codecs applications items).map (text :: ·)

/-- Encodes the entries of a record; the first failure counts. -/
def encodeEntries (codecs : List Codec) (applications : Registry) :
    List (String × Value) → Except ScriptError (List String)
  | [] => .ok []
  | (key, value) :: entries =>
    match encodeAs codecs applications value with
    | .error e => .error e
    | .ok text => (encodeEntries codecs applications entries).map ((key ++ ": " ++ text) :: ·)
end

end Codec
end ScriptBridge
