import ScriptBridge.Value.Basic
/-!
The leaves of a value: what stands in its lists and records, at any depth, and is neither a list nor
a record itself. What holds for leaves, and for lists and records of what it holds for, holds for
all values (`Value.nested_induction`).
-/
namespace ScriptBridge

mutual
/-- The leaves of a value, in the order of lists and of the keys of records. -/
def Value.leaves : Value → List Value
  | .list items => itemLeaves items
  | .map entries => entryLeaves entries
  | leaf => [leaf]

/-- The leaves of the items of a list. -/
def itemLeaves : List Value → List Value
  | [] => []
  | item :: items => item.leaves ++ itemLeaves items

/-- The leaves of the values of a record. -/
def entryLeaves : List (String × Value) → List Value
  | [] => []
  | (_, value) :: entries => value.leaves ++ entryLeaves entries
end

theorem itemLeaves_eq_flatMap (items : List Value) :
    itemLeaves items = items.flatMap (·.leaves) := by
  induction items with
  | nil => rfl
  | cons item items ih => rw [itemLeaves, ih, List.flatMap_cons]

theorem entryLeaves_eq_flatMap (entries : List (String × Value)) :
    entryLeaves entries = entries.flatMap (·.2.leaves) := by
  induction entries with
  | nil => rfl
  | cons entry entries ih => rw [entryLeaves, ih, List.flatMap_cons]

theorem Value.mem_leaves_list {items : List Value} {leaf : Value} :
    leaf ∈ (Value.list items).leaves ↔ ∃ item ∈ items, leaf ∈ item.leaves := by
  rw [leaves, itemLeaves_eq_flatMap, List.mem_flatMap]

theorem Value.mem_leaves_map {entries : List (String × Value)} {leaf : Value} :
    leaf ∈ (Value.map entries).leaves ↔ ∃ entry ∈ entries, leaf ∈ entry.2.leaves := by
  rw [leaves, entryLeaves_eq_flatMap, List.mem_flatMap]

/-- Values are leaves, lists of values and records of values. -/
theorem Value.nested_induction {motive : Value → Prop}
    (leaf : ∀ v, v.items? = none → v.entries? = none → motive v)
    (list : ∀ items, (∀ item ∈ items, motive item) → motive (.list items))
    (map : ∀ entries, (∀ entry ∈ entries, motive entry.2) → motive (.map entries)) (v : Value) :
    motive v := by
  match v with
  | .list items => exact list items fun item _ => nested_induction leaf list map item
  | .map entries => exact map entries fun entry _ => nested_induction leaf list map entry.2
  | .null | .text _ | .integer _ | .short _ | .long _ | .float _ | .double _ | .boolean _
  | .date _ | .data _ | .picture _ | .typedData _ | .point _ | .rectangle _ | .rgbColor _
  | .file _ | .fileAlias _ | .typeClass _ | .reference _ | .object _ | .constant _ | .id _
  | .interface _ => exact leaf _ rfl rfl
termination_by sizeOf v
decreasing_by
  · have inside := List.sizeOf_lt_of_mem ‹item ∈ items›
    rw [Value.list.sizeOf_spec]
    omega
  · have inside := List.sizeOf_lt_of_mem ‹entry ∈ entries›
    have second : sizeOf entry = 1 + sizeOf entry.1 + sizeOf entry.2 := rfl
    rw [Value.map.sizeOf_spec]
    omega

end ScriptBridge
