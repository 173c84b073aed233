import ScriptBridge.Json.Basic
/-!
Reading structures out of JSON documents.

A structure with named fields is written as an object, whose unknown keys are passed over and whose
known keys may not repeat, or as the array of its fields in their order, from whose end fields may
be missing. A choice without content is written as its name, or as an object of its name and `null`.

Documents are read to a limited depth: each array or object that a reader enters takes one level of
the room it is given.
-/
namespace ScriptBridge.Json

/-- How many arrays and objects deep a document is read. -/
def depthLimit : Nat := 127

/-- The value of the only member with a key; `none` if there is none, and a failure if there are
several. -/
def onlyMember? (members : List (Option String × Json)) (key : String) : Option (Option Json) :=
  match members.filter fun (k, _) => k == some key with
  | [] => some none
  | [(_, value)] => some (some value)
  | _ => none

/-- The fields of a structure in their order, each if it is there, and the room inside it. -/
def fields? (names : List String) : (room : Nat) → Json → Option (Nat × List (Option Json))
  | room + 1, .object members =>
    if members.all (·.1.isSome) then (names.mapM (onlyMember? members)).map (room, ·) else none
  | room + 1, .array items =>
    if items.length ≤ names.length then
      some (room, items.map some ++ List.replicate (names.length - items.length) none)
    else none
  | _, _ => none

/-- The items of an array and the room inside it. -/
def items? : (room : Nat) → Json → Option (Nat × List Json)
  | room + 1, .array items => some (room, items)
  | _, _ => none

/-- The items of an array, each one read. -/
def list? {α : Type} (read : Nat → Json → Option α) (room : Nat) (j : Json) : Option (List α) :=
  (items? room j).bind fun (room, items) => items.mapM (read room)

/-- The name of a choice, its content if it has any, and the room for the content. -/
def choice? : (room : Nat) → Json → Option (String × Option (Nat × Json))
  | _, .string (some name) => some (name, none)
  | room + 1, .object [(some name, content)] => some (name, some (room, content))
  | _, _ => none

/-- A field that must be there. -/
def required {α : Type} (read : Json → Option α) (field : Option Json) : Option α := field.bind read

/-- A field that has a value when it is missing. -/
def defaulted {α : Type} (value : α) (read : Json → Option α) : Option Json → Option α
  | none => some value
  | some j => read j

end ScriptBridge.Json
