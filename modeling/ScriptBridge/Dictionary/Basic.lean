import ScriptBridge.Value.Type
import ScriptBridge.Text.Search
/-!
Scripting dictionaries: what one application declares about itself.

A dictionary lists classes and enumerations. A class has a name, a code and perhaps a superclass,
and methods that read and write its properties and elements, run commands or make new objects.
What a method does follows from its kind and from the first word of its name; the rest of the name
is the key of the property.
-/
namespace ScriptBridge

/-- What a method is about. -/
inductive MethodKind where
  | property
  | element
  | command
  | make
  deriving DecidableEq, Repr, Inhabited

/-- A declared parameter. -/
structure Parameter where
  /-- The keyword before the argument; the direct parameter has none. -/
  keyword : Option String := none
  valueType : ValueType
  deriving DecidableEq, Repr, Inhabited

/-- A declared method. -/
structure Method where
  /-- The name under which it is called. -/
  name : String
  kind : MethodKind
  /-- The script language's name for the property, element or command. -/
  scriptName : Option String := none
  /-- The four-character code. -/
  code : Option String := none
  /-- The class of the elements, in the script language. -/
  scriptType : Option String := none
  /-- The parameters in the order of a call. -/
  parameters : List Parameter := []
  returns : ValueType := .void
  deriving DecidableEq, Repr, Inhabited

/-- A declared class. -/
structure ClassEntry where
  /-- The name of the interface to objects of the class. -/
  interface : String
  name : Option String := none
  /-- The four-character code. -/
  code : Option String := none
  /-- The script language's name for several objects. -/
  plural : Option String := none
  superclass : Option String := none
  methods : List Method := []
  deriving DecidableEq, Repr, Inhabited

/-- A declared constant of an enumeration. -/
structure ConstantEntry where
  /-- The name outside of scripts. -/
  name : String
  /-- The name in scripts. -/
  scriptName : String
  /-- The four-character code. -/
  code : Option String := none
  description : Option String := none
  deriving DecidableEq, Repr, Inhabited

/-- A declared enumeration. -/
structure Enumeration where
  name : String
  /-- The constants in their order. -/
  constants : List ConstantEntry
  deriving DecidableEq, Repr, Inhabited

/-- Everything that one application declares. -/
structure Dictionary where
  /-- The interface of the application itself. -/
  interface : String
  /-- The classes, that of the application included. -/
  classes : List ClassEntry
  enumerations : List Enumeration := []
  deriving DecidableEq, Repr, Inhabited

/-- A property, as its getter declares it. -/
structure Property where
  /-- The name in scripts. -/
  scriptName : String
  /-- The four-character code. -/
  code : Option String
  /-- The key under which it is given to callers. -/
  key : String
  valueType : ValueType
  deriving DecidableEq, Repr, Inhabited

namespace Method

/-- Whether a name starts with a word. -/
def startsWith (word : String) (m : Method) : Bool := word.toList.isPrefixOf m.name.toList

/-- Whether the name is that of a getter. -/
def isGetter (m : Method) : Bool := m.startsWith "get" || m.startsWith "is"

/-- The words that accessors start with, in the order in which they are tried. -/
def accessorWords : List String :=
  ["get_", "is_", "set_", "count_", "get", "is", "set", "count"]

/-- The name without the word that makes it an accessor, if anything is left of it. -/
def accessorName (m : Method) : String :=
  match accessorWords.findSome? fun word => word.toList.isPrefixOf? m.name.toList with
  | some rest => if rest.isEmpty then m.name else String.ofList rest
  | none => m.name

/-- The property that a getter with a name in scripts declares. -/
def property? (m : Method) : Option Property :=
  if m.kind = .property ∧ m.isGetter then
    m.scriptName.map fun scriptName =>
      { scriptName, code := m.code, key := m.accessorName, valueType := m.returns }
  else none

end Method

def Property.chevron? (p : Property) : Option String := p.code.map fun code => s!"«property {code}»"

def ClassEntry.chevron? (c : ClassEntry) : Option String :=
  c.code.map fun code => s!"«class {code}»"

/-- The first class of an interface. -/
def Dictionary.class? (d : Dictionary) (interface : String) : Option ClassEntry :=
  d.classes.find? (·.interface = interface)

/-- The first enumeration of a name. -/
def Dictionary.enumeration? (d : Dictionary) (name : String) : Option Enumeration :=
  d.enumerations.find? (·.name = name)

end ScriptBridge
