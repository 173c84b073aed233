/-!
JSON documents.

Numbers are kept as they are written, because what a number is worth depends on who reads it. A
string holds text unless its escapes name half of a surrogate pair: then it is well formed and holds
no text. The members of an object keep their order, and a key may occur more than once.
-/
namespace ScriptBridge

/-- A JSON document. -/
inductive Json where
  | null
  | bool (b : Bool)
  | number (literal : String)
  | string (text : Option String)
  | array (items : List Json)
  | object (members : List (Option String × Json))
  deriving Inhabited

namespace Json

/-- A string that holds a text. -/
def ofText (s : String) : Json := .string (some s)

/-- A text, or `null`. -/
def ofOption (s : Option String) : Json := (s.map ofText).getD .null

def ofInt (n : Int) : Json := .number (toString n)

/-- An object whose keys are texts. -/
def ofMembers (members : List (String × Json)) : Json :=
  .object (members.map fun (key, value) => (some key, value))

/-- The text of a string. -/
def text? : Json → Option String
  | string text => text
  | _ => none

/-- The truth of a boolean. -/
def bool? : Json → Option Bool
  | bool b => some b
  | _ => none

/-- A text or `null`. -/
def option? : Json → Option (Option String)
  | null => some none
  | string (some s) => some (some s)
  | _ => none

/-- The value of the first member with a key. -/
def get? (key : String) : Json → Option Json
  | object members => members.lookup (some key)
  | _ => none

end Json
end ScriptBridge
