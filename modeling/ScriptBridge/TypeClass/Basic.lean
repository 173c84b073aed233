import ScriptBridge.Chevron
/-!
Classes of scriptable objects.

An application reports the class of an object sometimes by name (`folder`) and sometimes by chevron
(`«class cfol»`). A `ClassLabel` is what is known of one class, and a `TypeClass` is a label with
the labels of its ancestors, nearest first. `ClassLabel.agreesWith` compares labels the lenient way
that such reports need: a name may match a code. `TypeClass.isAncestorOf` walks the chain with that
comparison.
-/
namespace ScriptBridge

/-- What is known about one class. -/
structure ClassLabel where
  name : Option String := none
  /-- The text of the class's chevron. -/
  code : Option String := none
  /-- The application that reported the class. -/
  application : Option String := none
  /-- The interface of that application, when it is registered. -/
  interface : Option String := none
  deriving DecidableEq, Repr, Inhabited

/-- A class with its chain of ancestors. -/
structure TypeClass where
  label : ClassLabel
  /-- The classes above it, nearest first. -/
  ancestors : List ClassLabel := []
  deriving DecidableEq, Repr, Inhabited

/-- Whether two labels may denote one class: equal names, equal codes, or the name of one equal to
the code of the other. Two absent names are equal, two absent codes are not. -/
def ClassLabel.agreesWith (a b : ClassLabel) : Bool :=
  a.name == b.name || a.name == b.code ||
    (a.code.isSome && a.code == b.code) || (a.code.isSome && a.code == b.name)

namespace TypeClass

/-- The class and its ancestors, nearest first. -/
def chain (c : TypeClass) : List ClassLabel := c.label :: c.ancestors

/-- A class below a given one, if one is given. -/
def below (label : ClassLabel) (superclass : Option TypeClass) : TypeClass :=
  { label, ancestors := (superclass.map chain).getD [] }

/-- A class that belongs to the script language itself. -/
def builtin (name code : String) : TypeClass :=
  { label := { name := some name, code := some s!"«class {code}»" } }

/-- The class that an interpreter's answer names; an answer in guillemets is name and code. -/
def ofAnswer (text : String) (application : Option String) : TypeClass :=
  let text := Text.trimmed text
  let code := if ['«'].isPrefixOf text.toList then some text else none
  { label := { name := some text, code, application } }

/-- The chevron of the class, if its code is one. -/
def chevron? (c : TypeClass) : Option Chevron :=
  c.label.code.bind fun text => (Chevron.parse text).toOption

/-- Lenient equality of classes. -/
def looselyEquals (a b : TypeClass) : Bool := a.label.agreesWith b.label

/-- Whether a class is this class or below it. -/
def isAncestorOf (a : TypeClass) (b : TypeClass) : Bool := b.chain.any (·.agreesWith a.label)

/-- The class as diagnostics show it. -/
def render (c : TypeClass) : String :=
  let name := c.label.name.getD "null"
  let code := c.label.code.getD "null"
  if c.label.name.isSome ∧ c.label.name = c.label.code then name else s!"{name}/{code}"

end TypeClass
end ScriptBridge
