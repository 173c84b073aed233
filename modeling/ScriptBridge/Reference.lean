/-!
Addressing objects inside scriptable applications.

A `Reference` is the two halves of an object specifier: the text that names the object, and the
text that names the application it lives in. The application's root object has no object half. A
`BoundReference` adds the interface under which the object is to be driven.
-/
namespace ScriptBridge

/-- An object specifier: the object's text and the application's text. -/
structure Reference where
  /-- The object half; the root object has none. -/
  object : Option String
  /-- The application half, such as `application "Finder"`. -/
  application : Option String
  deriving DecidableEq, Repr, Inhabited

namespace Reference

/-- The root object of an application. -/
def root (application : String) : Reference := { object := none, application := some application }

/-- The object half, or the empty text. -/
def objectText (r : Reference) : String := r.object.getD ""

/-- Another object of the same application. -/
def sibling (r : Reference) (object : String) : Reference := { r with object := some object }

/-- Whether the object half is a record literal. -/
def isRecord (r : Reference) : Bool :=
  match r.object with
  | none => false
  | some text => text.toList.head? == some '\x7b' && text.toList.getLast? == some '\x7d'

/-- The words that place something inside the object; nothing for the root object. -/
def ofClause (r : Reference) : String :=
  match r.object with
  | none => ""
  | some text => s!" of {text}"

/-- The reference as diagnostics show it. -/
def render (r : Reference) : String :=
  let application := r.application.getD "null"
  let object := r.object.getD "null"
  s!"[{application}]: {object}"

/-- The reference as script text: its object, or the application if it has none. -/
def scriptText (r : Reference) : String := (r.object.or r.application).getD "missing value"

end Reference

/-- A reference together with the interface it is driven through. -/
structure BoundReference where
  interface : String
  /-- What is driven. -/
  reference : Reference
  deriving DecidableEq, Repr, Inhabited

end ScriptBridge
