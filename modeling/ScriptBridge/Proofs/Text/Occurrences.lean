import Mathlib.Data.List.Infix
import ScriptBridge.Text.Search
/-!
Finding a piece, and counting its occurrences.

A text contains a piece exactly when the piece is an infix of it (`contains_iff`), and is divided by
a character where that character stands first (`splitFirst?_iff`). A character that is not in the
piece separates occurrences: the text before it and the text after it are counted by themselves
(`occurrences_append`). A text is cut at the first of its separators (`splitOn_append`).
-/
namespace ScriptBridge.Text

theorem contains_iff {text piece : List Char} : contains text piece = true ↔ piece <:+: text := by
  unfold contains
  induction text with
  | nil =>
    cases piece with
    | nil => exact iff_of_true rfl (List.infix_refl [])
    | cons c piece => exact iff_of_false Bool.false_ne_true (by simp)
  | cons c text ih =>
    rw [splitFirst?, List.infix_cons_iff, ← ih]
    cases h : piece.isPrefixOf? (c :: text) with
    | none =>
      have other : ¬ piece <+: c :: text := by
        rintro ⟨rest, hr⟩
        rw [List.isPrefixOf?_eq_some_iff_append_eq.mpr hr] at h
        cases h
      simp [other]
    | some rest =>
      have here : piece <+: c :: text := ⟨rest, List.isPrefixOf?_eq_some_iff_append_eq.mp h⟩
      simp [here]

theorem splitFirst?_iff {mark : Char} {text before after : List Char} :
    splitFirst? [mark] text = some (before, after) ↔ text = before ++ mark :: after ∧
      mark ∉ before := by
  induction text generalizing before with
  | nil => simp [splitFirst?]
  | cons c text ih =>
    rw [splitFirst?]
    by_cases here : mark = c
    · subst here
      have found : [mark].isPrefixOf? (mark :: text) = some text := by simp [List.isPrefixOf?]
      rw [found]
      cases before with
      | nil => simp [eq_comm]
      | cons d before => simp +contextual [eq_comm]
    · have other : [mark].isPrefixOf? (c :: text) = none := by simp [List.isPrefixOf?, here]
      rw [other]
      cases before with
      | nil => simp [Ne.symm here]
      | cons d before =>
        rw [Option.map_eq_some_iff, List.cons_append, List.mem_cons, not_or]
        constructor
        · rintro ⟨⟨first, rest⟩, found, e⟩
          cases e
          obtain ⟨rfl, free⟩ := ih.mp found
          exact ⟨rfl, here, free⟩
        · rintro ⟨e, -, free⟩
          cases e
          exact ⟨(before, after), ih.mpr ⟨rfl, free⟩, rfl⟩

/-- How often a piece stands in a nonempty part of a text; occurrences may overlap. -/
def occurrences (piece : List Char) : List Char → Nat
  | [] => 0
  | c :: rest => (if piece.isPrefixOf (c :: rest) then 1 else 0) + occurrences piece rest

theorem occurrences_eq_zero {piece text : List Char} (h : ¬ piece <:+: text) :
    occurrences piece text = 0 := by
  induction text with
  | nil => rfl
  | cons c text ih =>
    rw [List.infix_cons_iff, not_or] at h
    rw [occurrences, if_neg (by rw [List.isPrefixOf_iff_prefix]; exact h.1), ih h.2]

section
variable {piece : List Char} {c : Char}

theorem occurrences_cons (h : piece.head? ≠ some c) (hne : piece ≠ []) (text : List Char) :
    occurrences piece (c :: text) = occurrences piece text := by
  obtain ⟨d, rest, rfl⟩ := List.exists_cons_of_ne_nil hne
  have other : d ≠ c := fun hd => h (congrArg some hd)
  rw [occurrences, if_neg (by simp [List.isPrefixOf, other]), Nat.zero_add]

/-- To start a text, a piece need not look behind a character that is not in it. -/
theorem isPrefix_append_cons (hc : c ∉ piece) (before after : List Char) :
    piece <+: before ++ c :: after ↔ piece <+: before := by
  induction piece generalizing before with
  | nil => exact iff_of_true (List.nil_prefix) (List.nil_prefix)
  | cons d piece ih =>
    rw [List.mem_cons, not_or] at hc
    cases before with
    | nil => simp [List.cons_prefix_cons, Ne.symm hc.1]
    | cons e before =>
      rw [List.cons_append, List.cons_prefix_cons, List.cons_prefix_cons, ih hc.2]

/-- A character that is not in the piece separates its occurrences. -/
theorem occurrences_append (hc : c ∉ piece) (hne : piece ≠ []) (before after : List Char) :
    occurrences piece (before ++ c :: after) =
      occurrences piece before + occurrences piece after := by
  induction before with
  | nil =>
    have other : piece.head? ≠ some c := fun h => hc (List.mem_of_head? h)
    rw [List.nil_append, occurrences_cons other hne, occurrences, Nat.zero_add]
  | cons d before ih =>
    -- An occurrence that starts before the separator ends before it too.
    have same : piece.isPrefixOf (d :: before ++ c :: after) = piece.isPrefixOf (d :: before) := by
      rw [Bool.eq_iff_iff, List.isPrefixOf_iff_prefix, List.isPrefixOf_iff_prefix]
      exact isPrefix_append_cons hc (d :: before) after
    rw [List.cons_append] at same ⊢
    rw [occurrences, occurrences, same, ih, Nat.add_assoc]

end

/-! ## Cutting at separators -/

theorem splitOn_ne_nil (isSeparator : Char → Bool) (s : List Char) :
    splitOn isSeparator s ≠ [] := by
  cases s with
  | nil => simp [splitOn]
  | cons c s =>
    rw [splitOn]
    split
    · simp
    · split <;> simp

theorem splitOn_of_none {isSeparator : Char → Bool} {s : List Char}
    (h : ∀ c ∈ s, isSeparator c = false) : splitOn isSeparator s = [s] := by
  induction s with
  | nil => rfl
  | cons c s ih =>
    rw [splitOn, if_neg (by simp [h c List.mem_cons_self]),
      ih fun x hx => h x (List.mem_cons_of_mem c hx)]

theorem splitOn_append {isSeparator : Char → Bool} {s : List Char}
    (h : ∀ c ∈ s, isSeparator c = false) {d : Char} (hd : isSeparator d = true) (rest : List Char) :
    splitOn isSeparator (s ++ d :: rest) = s :: splitOn isSeparator rest := by
  induction s with
  | nil => rw [List.nil_append, splitOn, if_pos hd]
  | cons c s ih =>
    rw [List.cons_append, splitOn, if_neg (by simp [h c List.mem_cons_self]),
      ih fun x hx => h x (List.mem_cons_of_mem c hx)]

end ScriptBridge.Text
