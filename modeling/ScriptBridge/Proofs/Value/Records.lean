import Mathlib.Data.List.Nodup
import ScriptBridge.Value.Basic
/-!
Tables with keys, and records in the order of their keys.

Setting a new key of a record puts one entry at its place (`setKey_perm`, `sorted_setKey`). So the
record of entries with distinct keys is these entries in order: nothing is lost, nothing is written
over (`recordOf_perm`, `sorted_recordOf`), and entries that are in order already stay as they are
(`recordOf_of_sorted`).
-/
namespace ScriptBridge

/-- The keys of a table. -/
abbrev keys {α : Type} (table : List (String × α)) : List String := table.map Prod.fst

section
variable {α : Type} {table : List (String × α)} {key : String} {value : α}

theorem mem_of_lookup (h : table.lookup key = some value) : (key, value) ∈ table := by
  obtain ⟨before, after, rfl, -⟩ := List.lookup_eq_some_iff.mp h
  exact List.mem_append_right _ List.mem_cons_self

theorem lookup_of_notMem (h : key ∉ keys table) : table.lookup key = none := by
  cases found : table.lookup key with
  | none => rfl
  | some value => exact absurd (List.mem_map_of_mem (mem_of_lookup found)) h

theorem exists_lookup (h : key ∈ keys table) : ∃ value, table.lookup key = some value := by
  obtain ⟨entry, he, rfl⟩ := List.mem_map.mp h
  exact Option.isSome_iff_exists.mp (List.lookup_isSome_iff.mpr ⟨entry, he, beq_self_eq_true _⟩)

theorem lookup_of_mem (hk : (keys table).Nodup) (h : (key, value) ∈ table) :
    table.lookup key = some value := by
  obtain ⟨before, after, rfl⟩ := List.append_of_mem h
  refine List.lookup_eq_some_iff.mpr ⟨before, after, rfl, fun entry he => ?_⟩
  rw [keys, List.map_append, List.nodup_append] at hk
  have other : entry.1 ≠ key :=
    hk.2.2 _ (List.mem_map_of_mem he) _ (List.mem_map_of_mem List.mem_cons_self)
  exact bne_iff_ne.mpr other.symm

theorem lookup_map {β : Type} (f : α → β) :
    (table.map (Prod.map id f)).lookup key = (table.lookup key).map f := by
  induction table with
  | nil => rfl
  | cons entry table ih =>
    rw [List.map_cons, List.lookup_cons, List.lookup_cons, ih,
      show (Prod.map id f entry).1 = entry.1 from rfl]
    cases key == entry.1 <;> rfl

/-- In a table that is put together from others, the first one that has a key counts. -/
theorem lookup_flatMap {β γ : Type} [BEq β] (tables : γ → List (β × α)) (sources : List γ)
    (key : β) :
    (sources.flatMap tables).lookup key = sources.findSome? fun c => (tables c).lookup key := by
  induction sources with
  | nil => rfl
  | cons c sources ih =>
    rw [List.flatMap_cons, List.lookup_append, ih, List.findSome?_cons]
    cases (tables c).lookup key <;> rfl

theorem keys_map {β : Type} (f : α → β) : keys (table.map (Prod.map id f)) = keys table := by
  rw [keys, List.map_map]
  rfl

/-- A record in the order of its keys, each of which occurs once. -/
def Sorted (record : List (String × α)) : Prop := record.Pairwise fun a b => a.1 < b.1

theorem sorted_iff : Sorted table ↔ (keys table).Pairwise (· < ·) := List.pairwise_map.symm

theorem setKey_perm (h : key ∉ keys table) :
    (setKey key value table).Perm ((key, value) :: table) := by
  induction table with
  | nil => exact .refl _
  | cons entry table ih =>
    rw [keys, List.map_cons, List.mem_cons, not_or] at h
    rw [setKey, if_neg h.1]
    split
    · exact .refl _
    · exact ((ih h.2).cons entry).trans (.swap ..)

theorem keys_setKey_subset : ∀ k ∈ keys (setKey key value table), k = key ∨ k ∈ keys table := by
  induction table with
  | nil =>
    intro k hk
    exact .inl (List.mem_singleton.mp hk)
  | cons entry table ih =>
    intro k hk
    rw [setKey] at hk
    split at hk
    · exact List.mem_cons.mp hk
    · split at hk
      · rcases List.mem_cons.mp hk with hk | hk
        · exact .inl hk
        · exact .inr (List.mem_cons_of_mem _ hk)
      · rcases List.mem_cons.mp hk with hk | hk
        · exact .inr (hk ▸ List.mem_cons_self)
        · exact (ih k hk).imp_right (List.mem_cons_of_mem _)

theorem sorted_setKey (h : Sorted table) : Sorted (setKey key value table) := by
  induction table with
  | nil => exact List.pairwise_singleton _ _
  | cons entry table ih =>
    obtain ⟨first, rest⟩ := List.pairwise_cons.mp h
    rw [setKey]
    split
    · next less =>
      refine List.pairwise_cons.mpr ⟨fun other ho => ?_, h⟩
      rcases List.mem_cons.mp ho with rfl | ho
      · exact less
      · exact String.lt_trans less (first other ho)
    · next notLess =>
      split
      · next same =>
        exact List.pairwise_cons.mpr ⟨fun other ho => same ▸ first other ho, rest⟩
      · next differs =>
        refine List.pairwise_cons.mpr ⟨fun other ho => ?_, ih rest⟩
        rcases keys_setKey_subset _ (List.mem_map_of_mem ho) with isKey | old
        · rw [isKey]
          exact Std.lt_of_le_of_ne (String.not_lt.mp notLess) (Ne.symm differs)
        · obtain ⟨known, hknown, same⟩ := List.mem_map.mp old
          rw [← same]
          exact first known hknown

theorem setKey_map {β : Type} (f : α → β) :
    setKey key (f value) (table.map (Prod.map id f)) =
      (setKey key value table).map (Prod.map id f) := by
  induction table with
  | nil => rfl
  | cons entry table ih =>
    rw [List.map_cons, setKey, setKey, ih, apply_ite (List.map (Prod.map id f)),
      apply_ite (List.map (Prod.map id f))]
    rfl

end

section
variable {α : Type} (entries : List (String × α))

theorem sorted_recordOf : Sorted (recordOf entries) := by
  have grown (record : List (String × α)) (h : Sorted record) :
      Sorted (entries.foldl (fun record entry => setKey entry.1 entry.2 record) record) := by
    induction entries generalizing record with
    | nil => exact h
    | cons entry entries ih => exact ih _ (sorted_setKey h)
  exact grown [] List.Pairwise.nil

variable {entries}

theorem recordOf_perm (hk : (keys entries).Nodup) : (recordOf entries).Perm entries := by
  -- Setting starts from any record whose keys are not among those that are still to be set.
  have grown (record : List (String × α)) (h : (keys (entries ++ record)).Nodup) :
      (entries.foldl (fun record entry => setKey entry.1 entry.2 record) record).Perm
        (entries ++ record) := by
    induction entries generalizing record with
    | nil => exact .refl _
    | cons entry entries ih =>
      rw [List.cons_append, keys, List.map_cons, List.nodup_cons] at h
      have new : entry.1 ∉ keys record := fun old => h.1 (by
        rw [List.map_append]
        exact List.mem_append_right _ old)
      have moved : (entries ++ setKey entry.1 entry.2 record).Perm (entry :: (entries ++ record)) :=
        ((setKey_perm new).append_left entries).trans List.perm_middle
      refine (ih hk.of_cons _ ?_).trans moved
      exact (moved.map Prod.fst).nodup_iff.mpr (List.nodup_cons.mpr h)
  have whole := grown [] (by rwa [List.append_nil])
  rwa [List.append_nil] at whole

theorem recordOf_of_sorted (h : Sorted entries) : recordOf entries = entries := by
  have distinct : (keys entries).Nodup := by
    rw [keys, List.nodup_iff_pairwise_ne, List.pairwise_map]
    apply h.imp
    intro a b less same
    rw [same] at less
    exact String.lt_irrefl _ less
  refine List.Perm.eq_of_pairwise ?_ (sorted_recordOf entries) h (recordOf_perm distinct)
  intro a b _ _ before after
  exact absurd (String.lt_trans before after) (String.lt_irrefl _)

theorem recordOf_map {β : Type} (f : α → β) :
    recordOf (entries.map (Prod.map id f)) = (recordOf entries).map (Prod.map id f) := by
  have grown (record : List (String × α)) :
      (entries.map (Prod.map id f)).foldl (fun record entry => setKey entry.1 entry.2 record)
          (record.map (Prod.map id f)) =
        (entries.foldl (fun record entry => setKey entry.1 entry.2 record) record).map
          (Prod.map id f) := by
    induction entries generalizing record with
    | nil => rfl
    | cons entry entries ih =>
      rw [List.map_cons, List.foldl_cons, List.foldl_cons, ← ih, ← setKey_map]
      rfl
  exact grown []

end

end ScriptBridge
