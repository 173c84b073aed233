import ScriptBridge.Dictionary.Basic
import ScriptBridge.Error
/-!
The model of a registered application: the tables that calls are looked up in.

Building a model follows every chain of superclasses to its end, so a chain that is broken or runs
in a circle is found at once. The method table of an interface holds the methods of its class and
then those it inherits, so the first entry of a name is the nearest declaration. The property table
of an interface holds its own properties by name in scripts and by chevron, the latest declaration
first; inherited properties are found by walking up when they are asked for.
-/
namespace ScriptBridge

/-- The tables of one application. -/
structure Model where
  /-- The application, such as `application "Finder"`. -/
  application : String
  /-- What the application declares. -/
  dictionary : Dictionary
  /-- The class of each interface, superclasses first. -/
  typeClasses : List (String × TypeClass)
  /-- The methods by interface and name; the first entry counts. -/
  methods : List ((String × String) × Method)
  /-- The properties by interface and key; the first entry counts. -/
  properties : List (String × List (String × Property))
  deriving Repr, Inhabited

namespace Model

/-! ## Building -/

/-- The class of a declaration and the classes built so far. The fuel bounds the length of the chain
of superclasses. -/
def typeClassFor (d : Dictionary) (application : String) : (fuel : Nat) → ClassEntry →
    List (String × TypeClass) → Except ConfigFault (TypeClass × List (String × TypeClass))
  | fuel, entry, built =>
    match built.lookup entry.interface with
    | some existing => .ok (existing, built)
    | none =>
      let label : ClassLabel :=
        { name := entry.name, code := entry.chevron?, application := some application,
          interface := some d.interface }
      let finish (superclass : Option TypeClass) (built : List (String × TypeClass)) :=
        let c := TypeClass.below label superclass
        (c, built ++ [(entry.interface, c)])
      match fuel with
      | 0 => .error (.superclassCycle entry.interface)
      | fuel + 1 =>
        match entry.superclass with
        | none => .ok (finish none built)
        | some name =>
          match d.class? name with
          | none => .error (.superclassNotDeclared name entry.interface)
          | some parent =>
            match typeClassFor d application fuel parent built with
            | .error e => .error e
            | .ok (superclass, built) => .ok (finish (some superclass) built)

/-- The classes of all interfaces. -/
def buildTypeClasses (d : Dictionary) (application : String) :
    Except ConfigFault (List (String × TypeClass)) :=
  d.classes.foldlM (fun built entry =>
    (typeClassFor d application (d.classes.length + 1) entry built).map (·.2)) []

/-- A declaration and those it inherits from, nearest first. -/
def lineage (d : Dictionary) : (fuel : Nat) → ClassEntry → List ClassEntry
  | 0, _ => []
  | fuel + 1, entry =>
    entry :: match entry.superclass.bind d.class? with
      | none => []
      | some parent => lineage d fuel parent

/-- The methods of an interface and those it inherits, nearest first. -/
def methodEntries (d : Dictionary) (entry : ClassEntry) : List ((String × String) × Method) :=
  (lineage d (d.classes.length + 1) entry).flatMap fun declaring =>
    declaring.methods.map fun m => ((entry.interface, m.name), m)

/-- The keys under which a getter's property is found. -/
def propertyKeys (m : Method) : List (String × Property) :=
  match m.property? with
  | none => []
  | some p => (p.chevron?.map fun chevron => (chevron, p)).toList ++ [(p.scriptName, p)]

/-- The properties that a class declares itself, the latest declaration first. -/
def propertyEntries (entry : ClassEntry) : List (String × Property) :=
  (entry.methods.flatMap propertyKeys).reverse

/-- The model of an application, or what is wrong with its dictionary. -/
def build (d : Dictionary) (application : String) : Except ConfigFault Model :=
  if (d.class? d.interface).isNone then .error (.applicationNotDeclared d.interface)
  else (buildTypeClasses d application).map fun typeClasses =>
    { application, dictionary := d, typeClasses,
      methods := d.classes.flatMap (methodEntries d),
      properties := (d.classes.map fun entry => (entry.interface, propertyEntries entry)).reverse }

/-! ## Looking up -/

def typeClass? (m : Model) (interface : String) : Option TypeClass :=
  m.typeClasses.lookup interface

/-- The method of an interface, its own or inherited. -/
def method? (m : Model) (interface name : String) : Option Method :=
  m.methods.lookup (interface, name)

/-- Whether a declared class is the one that another description names: equal codes, equal names, or
the declared code where the other has its name. -/
def isDeclaredAs (declared other : TypeClass) : Bool :=
  (declared.label.code.isSome && declared.label.code == other.label.code) ||
    (declared.label.name.isSome && declared.label.name == other.label.name) ||
    (declared.label.code.isSome && declared.label.code == other.label.name)

/-- The interface and the class that a description names. -/
def declared? (m : Model) (c : TypeClass) : Option (String × TypeClass) :=
  m.typeClasses.find? fun (_, declared) => isDeclaredAs declared c

/-- The interface that a description names. -/
def interfaceFor? (m : Model) (c : TypeClass) : Option String := (m.declared? c).map (·.1)

/-- The declared class that a description names. -/
def declaredTypeClass? (m : Model) (c : TypeClass) : Option TypeClass := (m.declared? c).map (·.2)

/-- The property under a key of an interface or, failing that, of one it inherits from. -/
def propertyFrom? (m : Model) (key : String) : (fuel : Nat) → (interface : String) → Option Property
  | 0, _ => none
  | fuel + 1, interface =>
    match (m.properties.lookup interface).bind fun entries => entries.lookup key with
    | some property => some property
    | none =>
      ((m.dictionary.class? interface).bind ClassEntry.superclass).bind (propertyFrom? m key fuel)

/-- The property of a class under a key, which is a name in scripts or a chevron. -/
def property? (m : Model) (c : TypeClass) (key : String) : Option Property :=
  (m.interfaceFor? c).bind (m.propertyFrom? key (m.dictionary.classes.length + 1))

end Model
end ScriptBridge
