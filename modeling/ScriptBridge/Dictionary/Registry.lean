import ScriptBridge.Dictionary.Model
/-!
The registry of applications.

An application is registered once: a later registration of the same application answers with the
model that is there. Interfaces and enumerations are looked up in the application that is asked for
and, failing that, in the applications in the order of their registration.
-/
namespace ScriptBridge

/-- The registered applications in the order of their registration. -/
structure Registry where
  models : List (String × Model) := []
  deriving Repr, Inhabited

namespace Registry

def get? (r : Registry) (application : String) : Option Model := r.models.lookup application

def register (r : Registry) (d : Dictionary) (application : String) :
    Except ConfigFault (Model × Registry) :=
  match r.get? application with
  | some existing => .ok (existing, r)
  | none =>
    (Model.build d application).map fun m => (m, { models := r.models ++ [(application, m)] })

/-- The model that declares an interface, preferably that of an application. -/
def resolve? (r : Registry) (application : Option String) (interface : String) : Option Model :=
  let declares (m : Model) := (m.dictionary.class? interface).isSome
  match (application.bind r.get?).filter declares with
  | some m => some m
  | none => (r.models.map (·.2)).find? declares

/-- Whether an interface is declared. -/
def hasInterface (r : Registry) (application : Option String) (interface : String) : Bool :=
  (r.resolve? application interface).isSome

def class? (r : Registry) (application : Option String) (interface : String) : Option ClassEntry :=
  (r.resolve? application interface).bind fun m => m.dictionary.class? interface

/-- The name in scripts of an interface's class. -/
def className? (r : Registry) (application : Option String) (interface : String) : Option String :=
  (r.class? application interface).bind ClassEntry.name

/-- An enumeration, preferably that of an application. -/
def enumeration? (r : Registry) (application : Option String) (name : String) :
    Option Enumeration :=
  match (application.bind r.get?).bind fun m => m.dictionary.enumeration? name with
  | some e => some e
  | none => r.models.findSome? fun (_, m) => m.dictionary.enumeration? name

/-- What became of a class that an application reported. -/
inductive Interning where
  /-- The class belongs to no application. -/
  | unscoped
  | declared (c : TypeClass)
  /-- The application, which has this interface, does not declare it. -/
  | undeclared (interface : String)
  | unknownApplication (application : String)

/-- Looks a class up in the application that reported it. -/
def findDeclared (r : Registry) (c : TypeClass) : Interning :=
  match c.label.application with
  | none => .unscoped
  | some application =>
    match r.get? application with
    | none => .unknownApplication application
    | some m =>
      match m.declaredTypeClass? c with
      | some declared => .declared declared
      | none => .undeclared m.dictionary.interface

/-- The declared class that a reported one names, or the reported class itself. -/
def intern (r : Registry) (c : TypeClass) : TypeClass :=
  match r.findDeclared c with
  | .declared declared => declared
  | _ => c

end Registry
end ScriptBridge
