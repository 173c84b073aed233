import ScriptBridge.TypeClass.Basic
/-!
The intern table of classes that belong to no application.

`ClassTable.intern` gives the class that is cached under a name, or builds one; it caches the new
class under its name and its code when it has both and belongs to no application, because the names
of application classes are not unique across applications. Each class that is built gets a serial
number, so that "the same class again" can be told from "an equal class".
-/
namespace ScriptBridge

/-- A class with the serial number it was built under. -/
structure InternedClass where
  /-- Distinguishes this building of the class from every other. -/
  serial : Nat
  value : TypeClass
  deriving DecidableEq, Repr, Inhabited

/-- The cached classes by name and code. -/
structure ClassTable where
  /-- The cache, one entry a key. -/
  entries : List (String × InternedClass) := []
  /-- The serial number of the next class. -/
  next : Nat := 0
  deriving Repr, Inhabited

namespace ClassTable

/-- The class cached under a key. -/
def lookup (t : ClassTable) (key : String) : Option InternedClass := t.entries.lookup key

/-- How many keys are cached. -/
def size (t : ClassTable) : Nat := t.entries.length

/-- The cache with a key set. -/
def insertEntry (key : String) (c : InternedClass) :
    List (String × InternedClass) → List (String × InternedClass)
  | [] => [(key, c)]
  | entry :: rest =>
    if entry.1 = key then (key, c) :: rest else entry :: insertEntry key c rest

/-- The class cached under the name, or a new one. -/
def intern (t : ClassTable) (name code application : Option String)
    (superclass : Option TypeClass) : InternedClass × ClassTable :=
  match name.bind t.lookup with
  | some cached => (cached, t)
  | none =>
    let built : InternedClass :=
      { serial := t.next, value := .below { name, code, application } superclass }
    let entries := match name, code, application with
      | some name, some code, none => insertEntry code built (insertEntry name built t.entries)
      | _, _, _ => t.entries
    (built, { entries, next := t.next + 1 })

end ClassTable
end ScriptBridge
