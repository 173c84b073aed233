import ScriptBridge.Proofs.Calendar.Layouts
import ScriptBridge.Proofs.Text.Pieces
/-!
Making a date universal.

A text is settled piece by piece: a gap becomes a space and a unit of digits and marks stays
(`Collapses.unit`, `Collapses.append`), so that the units of a date end up with single spaces between
them (`settled_eq`). Before that the month becomes a number, if its name is the longest that occurs
and occurs nowhere else (`replaceMonth_between`), and the marker of a half of the day, if there is
one, goes from where it stands to the end (`universal_unmarked`, `universal_marked`).
-/
namespace ScriptBridge.Calendar

open Text

/-! ## Characters of a text -/

-- The facts about names and marks that are decided for the languages quantify over the characters
-- of a text. Lean would try all characters there are; these instances try those of the text.

scoped instance (priority := 2000) decidableForallMem (p : Char → Prop) [DecidablePred p]
    (s : List Char) : Decidable (∀ c ∈ s, p c) :=
  List.decidableBAll p s

scoped instance (priority := 2000) decidableExistsMem (p : Char → Prop) [DecidablePred p]
    (s : List Char) : Decidable (∃ c ∈ s, p c) :=
  List.decidableBEx p s

/-! ## Separators and units -/

/-- A text of separators only. -/
def IsGap (s : List Char) : Prop := ∀ c ∈ s, isSeparator c = true

instance (s : List Char) : Decidable (IsGap s) :=
  decidable_of_iff (s.all isSeparator = true) List.all_eq_true

/-- A gap between two units. -/
structure IsBreak (s : List Char) : Prop where
  nonempty : s ≠ []
  gap : IsGap s

instance (s : List Char) : Decidable (IsBreak s) :=
  decidable_of_iff (s ≠ [] ∧ IsGap s) ⟨fun h => ⟨h.1, h.2⟩, fun h => ⟨h.nonempty, h.gap⟩⟩

theorem isBreak_space : IsBreak [' '] := by decide

/-- A number in the place of a month has a space of its own before what followed the month. -/
theorem isBreak_spaces : IsBreak [' ', ' '] := by decide

/-- A text without separators that starts with a digit. -/
structure IsUnit (u : List Char) : Prop where
  starts : StartsDigit u
  kept : ∀ c ∈ u, isSeparator c = false

theorem isSeparator_of_isDigit {c : Char} (h : c.isDigit = true) : isSeparator c = false := by
  have bounds := toNat_of_isDigit h
  have numerals : ∀ n < 58, 48 ≤ n → isSeparator (Char.ofNat n) = false := by decide
  rw [← Char.ofNat_toNat c]
  exact numerals _ (by omega) bounds.1

theorem isUnit_of_isDigit {digits : List Char} (hne : digits ≠ [])
    (h : ∀ c ∈ digits, c.isDigit = true) : IsUnit digits := by
  have starts := startsDigit_append hne h []
  rw [List.append_nil] at starts
  exact ⟨starts, fun c hc => isSeparator_of_isDigit (h c hc)⟩

theorem Writes.isUnit {width n : Nat} {digits : List Char} (h : Writes width n digits) :
    IsUnit digits :=
  isUnit_of_isDigit h.nonempty h.isDigit

theorem IsUnit.append {u marks : List Char} (h : IsUnit u)
    (hm : ∀ c ∈ marks, isSeparator c = false) : IsUnit (u ++ marks) := by
  obtain ⟨c, r, rfl, hc⟩ := h.starts
  refine ⟨⟨c, r ++ marks, rfl, hc⟩, fun d hd => ?_⟩
  exact (List.mem_append.mp hd).elim (h.kept d) (hm d)

theorem collapse_kept {u : List Char} (hne : u ≠ []) (hu : ∀ c ∈ u, isSeparator c = false)
    (afterSeparator : Bool) (rest : List Char) :
    collapse afterSeparator (u ++ rest) = u ++ collapse false rest := by
  induction u generalizing afterSeparator with
  | nil => exact absurd rfl hne
  | cons c u ih =>
    rw [List.forall_mem_cons] at hu
    rw [List.cons_append, collapse, if_pos (by simp [hu.1])]
    cases u with
    | nil => rfl
    | cons d u =>
      rw [ih (List.cons_ne_nil _ _) hu.2]
      rfl

theorem collapse_gap {g : List Char} (hg : IsGap g) (rest : List Char) :
    collapse true (g ++ rest) = collapse true rest := by
  induction g with
  | nil => rfl
  | cons c g ih =>
    have h := List.forall_mem_cons.mp hg
    rw [List.cons_append, collapse, if_neg (by simp [h.1]), if_pos rfl, ih h.2]

theorem collapse_first_gap {g : List Char} (hg : IsBreak g) (rest : List Char) :
    collapse false (g ++ rest) = ' ' :: collapse true rest := by
  obtain ⟨c, g, rfl⟩ := List.exists_cons_of_ne_nil hg.nonempty
  have h := List.forall_mem_cons.mp hg.gap
  rw [List.cons_append, collapse, if_neg (by simp [h.1]), if_neg Bool.false_ne_true,
    collapse_gap h.2]

/-! ## Settling a text -/

/-- A dot alone between spaces. -/
def loneDot : List Char := [' ', '.', ' ']

/-- What becomes of a text whose month is a number and whose markers are gone. -/
def settled (date : List Char) : List Char :=
  trim (replaceAll loneDot [' '] (dotted (dropFinalDot (collapse false date))))

theorem dotted_append (s t : List Char) : dotted (s ++ t) = dotted s ++ dotted t :=
  List.map_append

theorem dotted_of_isDigit {digits : List Char} (h : ∀ c ∈ digits, c.isDigit = true) :
    dotted digits = digits := by
  have stays : ∀ c ∈ digits, (if c = ':' ∨ c = '/' then '.' else c) = c := by
    intro c hc
    refine if_neg ?_
    rintro (rfl | rfl) <;> exact absurd (h _ hc) (by decide)
  calc dotted digits = digits.map id := List.map_congr_left stays
    _ = digits := List.map_id _

theorem dotted_cons {c : Char} (h : c.isDigit = true) (s : List Char) :
    dotted (c :: s) = c :: dotted s :=
  congrArg (· ++ dotted s) (dotted_of_isDigit (List.forall_mem_singleton.mpr h))

/-- A text with no gap at its end, its gaps collapsed, and no dot between spaces in it. -/
structure Collapses (s t : List Char) : Prop where
  collapsed : ∀ rest, collapse false (s ++ rest) = t ++ collapse false rest
  skipped : ∀ rest, contains (dotted t ++ rest) loneDot = contains rest loneDot

namespace Collapses
variable {s t s' t' g u : List Char}

theorem append (h : Collapses s t) (h' : Collapses s' t') : Collapses (s ++ s') (t ++ t') := by
  constructor
  · intro rest
    rw [List.append_assoc, h.collapsed, h'.collapsed, List.append_assoc]
  · intro rest
    rw [dotted_append, List.append_assoc, h.skipped, h'.skipped]

theorem unit (hu : IsUnit u) : Collapses u u := by
  obtain ⟨c, r, rfl, -⟩ := hu.starts
  refine ⟨collapse_kept (List.cons_ne_nil _ _) hu.kept false, fun rest => ?_⟩
  apply contains_skip (show loneDot.head? = some ' ' from rfl)
  intro blank
  obtain ⟨d, hd, e⟩ := List.mem_map.mp blank
  split at e
  · exact absurd e (by decide)
  · rw [e] at hd
    exact absurd (hu.kept ' ' hd) (by decide)

theorem gap (hg : IsBreak g) (hu : IsUnit u) : Collapses (g ++ u) (' ' :: u) := by
  obtain ⟨c, r, rfl, hc⟩ := hu.starts
  constructor
  · intro rest
    rw [List.append_assoc, collapse_first_gap hg, collapse_kept (List.cons_ne_nil _ _) hu.kept]
    rfl
  · intro rest
    -- After the space stands a digit, and no dot.
    have other : ¬ loneDot <+: ' ' :: (dotted (c :: r) ++ rest) := by
      rw [dotted_cons hc, loneDot, List.cons_append, List.cons_prefix_cons, List.cons_prefix_cons]
      rintro ⟨-, rfl, -⟩
      exact absurd hc (by decide)
    rw [← (unit hu).skipped rest, Bool.eq_iff_iff, contains_iff, contains_iff]
    show loneDot <:+: ' ' :: (dotted (c :: r) ++ rest) ↔ _
    rw [List.infix_cons_iff, or_iff_right other]

end Collapses

/-- What a gap at the end leaves is trimmed. -/
theorem collapse_ending {g : List Char} (hg : IsGap g) :
    collapse false g = [] ∨ collapse false g = [' '] := by
  cases g with
  | nil => exact .inl rfl
  | cons c g =>
    have h := collapse_first_gap ⟨List.cons_ne_nil c g, hg⟩ []
    rw [List.append_nil] at h
    exact .inr h

theorem settled_eq {s t ending : List Char} (h : Collapses s t) (gap : IsGap ending)
    (last : ∃ r c, t = r ++ [c] ∧ c.isDigit = true) :
    settled (s ++ ending) = trim (dotted t) := by
  obtain ⟨r, c, rfl, hc⟩ := last
  have kept {b : List Char} (hb : b = [] ∨ b = [' ']) :
      dropFinalDot (r ++ [c] ++ b) = r ++ [c] ++ b := by
    refine if_neg fun dot => ?_
    obtain rfl | rfl := hb
    · rw [List.append_nil, List.getLast?_concat] at dot
      rw [Option.some.inj dot] at hc
      exact absurd hc (by decide)
    · rw [List.getLast?_concat] at dot
      exact absurd dot (by decide)
  have ends := collapse_ending gap
  have free : contains (dotted (r ++ [c]) ++ dotted (collapse false ending)) loneDot = false := by
    rw [h.skipped]
    obtain e | e := ends <;> rw [e] <;> rfl
  have blank : AllBlank (dotted (collapse false ending)) := by
    obtain e | e := ends <;> rw [e] <;> decide
  rw [settled, h.collapsed, kept ends, dotted_append, replaceAll_eq_self free,
    trim_append_blank blank]

/-! ## The month -/

section
variable {names : List (List Char)}

theorem longestName?_congr {text other : List Char}
    (h : ∀ name ∈ names, contains text name = contains other name) :
    longestName? text names = longestName? other names := by
  have present : ∀ entry ∈ names.zipIdx 1, (!entry.1.isEmpty && contains text entry.1) =
      (!entry.1.isEmpty && contains other entry.1) := by
    rintro ⟨name, place⟩ listed
    rw [h name (List.fst_mem_of_mem_zipIdx listed)]
  exact congrArg (List.foldl _ none) (List.filter_congr present)

theorem replaceNames?_between {before name after : List Char} {place : Nat}
    (longest : longestName? name names = some (place, name)) (listed : name ∈ names)
    (within : ∀ other ∈ names, OnlyWithin other before name after) :
    replaceNames? (before ++ (name ++ after)) names =
      some (before ++ (Number.natDigits place ++ ' ' :: after)) := by
  have same := longestName?_congr fun other h => (within other h).contains_eq
  have whole := within name listed
  have replaced := whole.replaceAll_eq (Number.natDigits place ++ [' '])
  rw [replaceAll_self whole.nonempty, List.append_assoc] at replaced
  rw [replaceNames?, same, longest, Option.map_some]
  exact congrArg some replaced

theorem replaceMonth_between {symbols : Symbols} {before name after : List Char} {place : Nat}
    (longest : longestName? name (symbols.months.map String.toList) = some (place, name))
    (listed : name ∈ symbols.months.map String.toList)
    (within : ∀ other ∈ symbols.months.map String.toList, OnlyWithin other before name after) :
    replaceMonth symbols (before ++ (name ++ after)) =
      before ++ (Number.natDigits place ++ ' ' :: after) := by
  rw [replaceMonth, replaceNames?_between longest listed within, Option.some_or, Option.getD_some]

end

/-! ## The half of the day -/

/-- How the halves of the day are marked in a language. -/
def Symbols.marker (symbols : Symbols) (afternoon : Bool) : List Char :=
  if afternoon then symbols.afternoon.toList else symbols.forenoon.toList

section
variable {symbols : Symbols} {text : List Char}

theorem universal_unmarked {date s : List Char} (month : replaceMonth symbols text = date)
    (unmarked : ∀ afternoon, contains date (symbols.marker afternoon) = false)
    (numbers : settled date = s) (tight : Tight s) : universal symbols text = s := by
  have forenoon : contains date symbols.forenoon.toList = false := unmarked false
  have afternoon : contains date symbols.afternoon.toList = false := unmarked true
  simp only [universal, month, forenoon, afternoon, Bool.false_eq_true, if_false, List.append_nil]
  rw [← loneDot, ← settled, numbers, tight.trim_eq]

theorem universal_marked {before after s : List Char} {afternoon : Bool}
    (month : replaceMonth symbols text = before ++ (symbols.marker afternoon ++ after))
    (within : OnlyWithin (symbols.marker afternoon) before (symbols.marker afternoon) after)
    (other : contains (before ++ (symbols.marker afternoon ++ after)) (symbols.marker !afternoon) =
      false)
    (numbers : settled (before ++ after) = s) (tight : Tight s) :
    universal symbols text = s ++ halfSign afternoon := by
  have present : contains (before ++ (symbols.marker afternoon ++ after))
      (symbols.marker afternoon) = true := by
    rw [within.contains_eq, contains_iff]
  have removed : replaceAll (symbols.marker afternoon) []
      (before ++ (symbols.marker afternoon ++ after)) = before ++ after := by
    rw [within.replaceAll_eq, replaceAll_self within.nonempty]
    rfl
  have signed : trim (s ++ halfSign afternoon) = s ++ halfSign afternoon := by
    have last : trimEnd (halfSign afternoon) = halfSign afternoon := by
      cases afternoon <;> decide
    rw [tight.trim_append, last]
  rw [settled, loneDot] at numbers
  cases afternoon with
  | false =>
    simp only [Symbols.marker, Bool.not_false, if_true, Bool.false_eq_true,
      if_false] at present removed other month
    simp only [universal, month, present, removed, other, numbers, if_true, Bool.false_eq_true,
      if_false, List.append_nil]
    exact signed
  | true =>
    simp only [Symbols.marker, Bool.not_true, if_true, Bool.false_eq_true,
      if_false] at present removed other month
    simp only [universal, month, present, removed, other, numbers, if_true, Bool.false_eq_true,
      if_false, List.append_nil]
    exact signed

theorem universal_marked_last {before s : List Char} {afternoon : Bool}
    (month : replaceMonth symbols text = before ++ symbols.marker afternoon)
    (filled : ∀ half, symbols.marker half ≠ [])
    (unmarked : ∀ half, contains before (symbols.marker half) = false)
    (last : ∀ half, ∀ c ∈ before.getLast?, c ∉ symbols.marker half)
    (other : contains (symbols.marker afternoon) (symbols.marker !afternoon) = false)
    (numbers : settled before = s) (tight : Tight s) :
    universal symbols text = s ++ halfSign afternoon := by
  rw [← (symbols.marker afternoon).append_nil] at month
  rw [← before.append_nil] at numbers
  refine universal_marked month ⟨filled _, unmarked _, ?_, Apart.of_last (last _),
    Apart.of_head nofun⟩ ?_ numbers tight
  · exact contains_eq_false_iff.mpr fun found => filled _ (List.infix_nil.mp found)
  · rw [List.append_nil, contains_append (Apart.of_last (last _)) (filled _), unmarked, other,
      Bool.or_false]

end

end ScriptBridge.Calendar
