import ScriptBridge.Proofs.Text.Occurrences
/-!
Finding and replacing a piece in a text that is put together from others.

A piece that does not reach from one part of a text into the next is found and replaced in each part
by itself (`contains_append`, `replaceAll_append`). It does not reach over a character that it does
not have (`Apart.of_head`, `Apart.of_last`), nor past one that it ends with (`Apart.of_dropLast`).
-/
namespace ScriptBridge.Text

/-! ## Pieces that stay apart -/

/-- No piece starts within one text and ends within the text after it. -/
def Apart (piece before after : List Char) : Prop :=
  ∀ x y, piece = x ++ y → x ≠ [] → y ≠ [] → x <:+ before → ¬ y <+: after

variable {piece before after : List Char}

namespace Apart

theorem of_head (h : ∀ c ∈ after.head?, c ∉ piece) : Apart piece before after := by
  rintro x y rfl - hy - hp
  obtain ⟨c, y, rfl⟩ := List.exists_cons_of_ne_nil hy
  obtain ⟨rest, rfl⟩ := hp
  exact h c rfl (by simp)

/-- A text that ends with a character which a piece has nowhere but at its end. -/
theorem of_dropLast (h : ∀ c ∈ before.getLast?, c ∉ piece.dropLast) : Apart piece before after := by
  rintro x y rfl hx hy hs -
  obtain ⟨x, c, rfl⟩ := (List.eq_nil_or_concat' x).resolve_left hx
  obtain ⟨rest, rfl⟩ := hs
  refine h c (by simp [← List.append_assoc]) ?_
  rw [List.dropLast_append_of_ne_nil hy]
  simp

theorem of_last (h : ∀ c ∈ before.getLast?, c ∉ piece) : Apart piece before after :=
  of_dropLast fun c hc => mt List.mem_of_mem_dropLast (h c hc)

theorem of_cons {c : Char} (h : Apart piece (c :: before) after) : Apart piece before after :=
  fun x y e hx hy hs => h x y e hx hy (hs.trans (List.suffix_cons _ _))

theorem isPrefix_append (h : Apart piece before after) (hne : before ≠ []) :
    piece <+: before ++ after ↔ piece <+: before := by
  refine ⟨fun hp => ?_, fun hp => hp.trans (List.prefix_append _ _)⟩
  by_cases short : piece.length ≤ before.length
  · exact List.prefix_of_prefix_length_le hp (List.prefix_append _ _) short
  · obtain ⟨y, rfl⟩ := List.prefix_of_prefix_length_le (List.prefix_append before after) hp (by omega)
    have longer : y ≠ [] := by
      rintro rfl
      simp at short
    rw [List.prefix_append_right_inj] at hp
    exact absurd hp (h before y rfl hne longer (List.suffix_refl _))

end Apart

/-! ## Finding -/

theorem contains_eq_false_iff {text : List Char} :
    contains text piece = false ↔ ¬ piece <:+: text := by
  rw [← contains_iff, Bool.not_eq_true]

theorem contains_eq_false {text : List Char} {c : Char} (hc : c ∈ piece) (ht : c ∉ text) :
    contains text piece = false :=
  contains_eq_false_iff.mpr fun h => ht (h.subset hc)

theorem contains_append (h : Apart piece before after) (hne : piece ≠ []) :
    contains (before ++ after) piece = (contains before piece || contains after piece) := by
  rw [Bool.eq_iff_iff, Bool.or_eq_true, contains_iff, contains_iff, contains_iff]
  induction before with
  | nil => simp [hne]
  | cons c before ih =>
    rw [List.cons_append, List.infix_cons_iff, List.infix_cons_iff, ih h.of_cons,
      ← List.cons_append, h.isPrefix_append (List.cons_ne_nil _ _), or_assoc]

theorem contains_skip {c : Char} {rest : List Char} (hp : piece.head? = some c) (hc : c ∉ before) :
    contains (before ++ rest) piece = contains rest piece := by
  obtain ⟨piece, rfl⟩ := List.head?_eq_some_iff.mp hp
  rw [Bool.eq_iff_iff, contains_iff, contains_iff]
  induction before with
  | nil => rfl
  | cons d before ih =>
    rw [List.mem_cons, not_or] at hc
    rw [List.cons_append, List.infix_cons_iff, List.cons_prefix_cons, ih hc.2]
    simp [hc.1]

/-! ## Replacing -/

section
variable {replacement : List Char}

theorem replaceAll_eq_self {text : List Char} (h : contains text piece = false) :
    replaceAll piece replacement text = text := by
  rw [contains_eq_false_iff] at h
  unfold replaceAll
  induction text with
  | nil => rfl
  | cons c text ih =>
    rw [List.infix_cons_iff, not_or] at h
    rw [replaceFrom, if_neg (by rw [List.isPrefixOf_iff_prefix]; exact h.1), ih h.2]

theorem replaceFrom_covered (covered : List Char) :
    replaceFrom piece replacement covered.length covered = [] := by
  induction covered with
  | nil => rfl
  | cons c covered ih => rw [List.length_cons, replaceFrom, ih]

theorem replaceAll_append (h : Apart piece before after) :
    replaceAll piece replacement (before ++ after) =
      replaceAll piece replacement before ++ replaceAll piece replacement after := by
  unfold replaceAll
  suffices ∀ covered ≤ before.length, replaceFrom piece replacement covered (before ++ after) =
      replaceFrom piece replacement covered before ++ replaceFrom piece replacement 0 after from
    this 0 (Nat.zero_le _)
  induction before with
  | nil =>
    intro covered none
    rw [Nat.le_zero.mp none]
    simp [replaceFrom]
  | cons c before ih =>
    intro covered within
    cases covered with
    | succ covered =>
      rw [List.cons_append, replaceFrom, replaceFrom]
      exact ih h.of_cons covered (Nat.le_of_succ_le_succ within)
    | zero =>
      have same : piece.isPrefixOf (c :: before ++ after) = piece.isPrefixOf (c :: before) := by
        rw [Bool.eq_iff_iff, List.isPrefixOf_iff_prefix, List.isPrefixOf_iff_prefix]
        exact h.isPrefix_append (List.cons_ne_nil _ _)
      rw [List.cons_append] at same ⊢
      rw [replaceFrom, replaceFrom, same]
      split
      · next found =>
        -- The occurrence ends before the text after it starts.
        have ends := (List.isPrefixOf_iff_prefix.mp found).length_le
        rw [List.length_cons] at ends
        rw [ih h.of_cons _ (by omega), List.append_assoc]
      · rw [ih h.of_cons 0 (Nat.zero_le _), List.cons_append]

theorem replaceAll_self (hne : piece ≠ []) : replaceAll piece replacement piece = replacement := by
  obtain ⟨c, rest, rfl⟩ := List.exists_cons_of_ne_nil hne
  have found : (c :: rest).isPrefixOf (c :: rest) = true :=
    List.isPrefixOf_iff_prefix.mpr (List.prefix_refl _)
  rw [replaceAll, replaceFrom, if_pos found, List.length_cons, Nat.add_sub_cancel,
    replaceFrom_covered, List.append_nil]

end

/-! ## A piece within one part of a text -/

/-- A piece does not occur in a text but within the middle one of its three parts. -/
structure OnlyWithin (piece before middle after : List Char) : Prop where
  nonempty : piece ≠ []
  notBefore : contains before piece = false
  notAfter : contains after piece = false
  left : Apart piece before (middle ++ after)
  right : Apart piece middle after

namespace OnlyWithin
variable {middle : List Char} (h : OnlyWithin piece before middle after)
include h

theorem contains_eq : contains (before ++ (middle ++ after)) piece = contains middle piece := by
  rw [contains_append h.left h.nonempty, contains_append h.right h.nonempty, h.notBefore, h.notAfter,
    Bool.false_or, Bool.or_false]

theorem replaceAll_eq (replacement : List Char) :
    replaceAll piece replacement (before ++ (middle ++ after)) =
      before ++ (replaceAll piece replacement middle ++ after) := by
  rw [replaceAll_append h.left, replaceAll_append h.right, replaceAll_eq_self h.notBefore,
    replaceAll_eq_self h.notAfter]

end OnlyWithin

end ScriptBridge.Text
