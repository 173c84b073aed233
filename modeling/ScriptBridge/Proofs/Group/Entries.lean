import ScriptBridge.Proofs.Group.Scan
/-!
Entries of records between braces.

A key is free of the characters that mean something to the scanner of groups or divide an entry. So
an entry, which is a key, a colon and an item, is an item again (`Item.entry`), and it is divided at
the colon after its key however many colons follow (`splitEntry_entryText`). Entries between braces
come out as their keys and items (`splitRecord_entries`).
-/
namespace ScriptBridge.Group

open Text

/-- A text that may be the key of an entry: no white space around it, and none of the characters
that quote, group or divide. -/
structure IsKey (key : List Char) : Prop where
  trimmed : trim key = key
  plain : ∀ c ∈ key, c ≠ '"' ∧ c ≠ '\x7b' ∧ c ≠ '\x7d' ∧ c ≠ ',' ∧ c ≠ ':'

instance (key : List Char) : Decidable (IsKey key) :=
  decidable_of_iff (trim key = key ∧
    key.all fun c => c ≠ '"' ∧ c ≠ '\x7b' ∧ c ≠ '\x7d' ∧ c ≠ ',' ∧ c ≠ ':')
    ⟨fun h => ⟨h.1, fun c hc => of_decide_eq_true (List.all_eq_true.mp h.2 c hc)⟩,
      fun h => ⟨h.trimmed, List.all_eq_true.mpr fun c hc => decide_eq_true (h.plain c hc)⟩⟩

/-- An entry as it is written. -/
def entryText (key item : List Char) : List Char := key ++ ([':', ' '] ++ item)

/-! ## Entries as items -/

theorem stays_plain {a : List Char}
    (ha : ∀ c ∈ a, c ≠ '"' ∧ c ≠ '\x7b' ∧ c ≠ '\x7d' ∧ c ≠ ',') {s : Scanner} (hs : s.AtItem) :
    Stays s a := by
  induction a generalizing s with
  | nil => exact .nil hs
  | cons c a ih =>
    rw [List.forall_mem_cons] at ha
    obtain ⟨⟨quote, opening, closing, comma⟩, ha⟩ := ha
    have first := Stays.of_plain quote comma opening closing hs
    exact first.append (ih ha (first.atItem hs))

theorem IsKey.tight_entryText {key item : List Char} (hk : IsKey key) (hi : Tight item) :
    Tight (entryText key item) := by
  obtain ⟨r, c, rfl, hc⟩ := hi.last
  refine ⟨?_, key ++ ([':', ' '] ++ r), c, by simp [entryText], hc⟩
  cases key with
  | nil => exact ⟨':', ' ' :: (r ++ [c]), rfl, by decide⟩
  | cons d key =>
    obtain ⟨e, rest, h, he⟩ := (Tight.of_trim (List.cons_ne_nil d key) hk.trimmed).first
    obtain ⟨rfl, -⟩ := List.cons.inj h
    exact ⟨d, key ++ ([':', ' '] ++ (r ++ [c])), rfl, he⟩

theorem Item.entry {key item : List Char} (hk : IsKey key) (hi : Item item) :
    Item (entryText key item) := by
  refine .of_stays (hk.tight_entryText hi.tight) fun s hs => ?_
  have plain : ∀ c ∈ key ++ [':', ' '], c ≠ '"' ∧ c ≠ '\x7b' ∧ c ≠ '\x7d' ∧ c ≠ ',' := by
    rw [List.forall_mem_append]
    refine ⟨fun c hc => ?_, by simp⟩
    obtain ⟨quote, opening, closing, comma, -⟩ := hk.plain c hc
    exact ⟨quote, opening, closing, comma⟩
  have front := stays_plain plain hs
  rw [entryText, ← List.append_assoc]
  exact front.append (hi.stays (front.atItem hs))

/-! ## Taking entries apart -/

theorem keyAndValue?_append {key : List Char} (h : ∀ c ∈ key, c ≠ '"' ∧ c ≠ ':')
    (afterBackslash : Bool) (value : List Char) :
    keyAndValue? false afterBackslash (key ++ ':' :: value) = some (key, value) := by
  induction key generalizing afterBackslash with
  | nil => simp [keyAndValue?]
  | cons c key ih =>
    rw [List.forall_mem_cons] at h
    obtain ⟨⟨quote, colon⟩, h⟩ := h
    rw [List.cons_append, keyAndValue?, if_neg (by simp [colon])]
    simp [quote, ih h]

theorem splitEntry_entryText {key item : String} (hk : IsKey key.toList) (hi : Tight item.toList)
    (text : String) : splitEntry text (entryText key.toList item.toList) = .ok (key, item) := by
  have divided : keyAndValue? false false (entryText key.toList item.toList) =
      some (key.toList, ' ' :: item.toList) := by
    apply keyAndValue?_append
    intro c hc
    obtain ⟨quote, -, -, -, colon⟩ := hk.plain c hc
    exact ⟨quote, colon⟩
  have value : trim (' ' :: item.toList) = item.toList := by
    have blank : AllBlank [' '] := by decide
    exact (trim_blank_append blank item.toList).trans hi.trim_eq
  rw [splitEntry, divided]
  simp only [hk.trimmed, value, String.ofList_toList]

/-- Entries between braces come out as their keys and items. -/
theorem splitRecord_entries {text : String} {entries : List (String × String)}
    (h : ∀ entry ∈ entries, IsKey entry.1.toList ∧ Item entry.2.toList)
    (ht : text.toList = listText (entries.map fun entry =>
      entryText entry.1.toList entry.2.toList)) : splitRecord text = .ok entries := by
  have items : segments? text.toList =
      some (entries.map fun entry => entryText entry.1.toList entry.2.toList) := by
    rw [ht]
    exact segments?_listText (List.forall_mem_map.mpr fun entry he =>
      Item.entry (h entry he).1 (h entry he).2)
  have divided : (entries.map fun entry => entryText entry.1.toList entry.2.toList).mapM
      (splitEntry text) = .ok entries := by
    clear ht items
    induction entries with
    | nil => rfl
    | cons entry entries ih =>
      rw [List.forall_mem_cons] at h
      rw [List.map_cons, List.mapM_cons, splitEntry_entryText h.1.1 h.1.2.tight, ih h.2]
      rfl
  rw [splitRecord, items]
  exact divided

end ScriptBridge.Group
