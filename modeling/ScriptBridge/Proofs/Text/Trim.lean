import Mathlib.Data.List.Basic
import Mathlib.Data.List.TakeWhile
import ScriptBridge.Text.Search
import ScriptBridge.Text.Blank
/-!
Trimming and cutting off the ends of a text.

White space around a text goes (`trim_surrounded`), and a text whose first and last characters are
no white space stays (`Tight.trim_eq`), also inside of a longer one (`Tight.trim_append`). A text
stands between two pieces exactly when it is the middle of their concatenation (`between?_iff`), and
between the outer ones of a character's occurrences wherever the rest is free of that character
(`betweenOuter?_append`).
-/
namespace ScriptBridge.Text

/-- A text of white space only. -/
def AllBlank (w : List Char) : Prop := ∀ c ∈ w, isBlank c = true

instance (w : List Char) : Decidable (AllBlank w) :=
  decidable_of_iff (w.all isBlank = true) List.all_eq_true

/-- A text that neither starts nor ends with white space, and is not empty. -/
structure Tight (s : List Char) : Prop where
  first : ∃ c r, s = c :: r ∧ isBlank c = false
  last : ∃ r c, s = r ++ [c] ∧ isBlank c = false

/-! ## Cutting at the start and at the end -/

theorem trimStart_allBlank {w : List Char} (hw : AllBlank w) : trimStart w = [] :=
  List.dropWhile_eq_nil_iff.mpr hw

theorem trimStart_surrounded {w : List Char} (hw : AllBlank w) (s : List Char) :
    trimStart (w ++ s) = trimStart s := by
  have h : (List.dropWhile isBlank w).isEmpty = true := by
    rw [List.isEmpty_iff]
    exact trimStart_allBlank hw
  unfold trimStart
  rw [List.dropWhile_append, if_pos h]

theorem trimStart_cons {c : Char} (hc : isBlank c = false) (r : List Char) :
    trimStart (c :: r) = c :: r := by
  unfold trimStart
  rw [List.dropWhile_cons, hc]
  rfl

theorem AllBlank.reverse {w : List Char} (hw : AllBlank w) : AllBlank w.reverse :=
  fun c hc => hw c (List.mem_reverse.mp hc)

theorem trimEnd_append_blank {w : List Char} (hw : AllBlank w) (s : List Char) :
    trimEnd (s ++ w) = trimEnd s := by
  unfold trimEnd
  rw [List.reverse_append, trimStart_surrounded hw.reverse]

theorem trimEnd_concat {c : Char} (hc : isBlank c = false) (r : List Char) :
    trimEnd (r ++ [c]) = r ++ [c] := by
  unfold trimEnd
  rw [List.reverse_append, List.reverse_singleton, List.singleton_append, trimStart_cons hc]
  simp

theorem trimEnd_isPrefix (s : List Char) : trimEnd s <+: s := by
  have h : List.dropWhile isBlank s.reverse <:+ s.reverse := List.dropWhile_suffix _
  unfold trimEnd trimStart
  exact List.reverse_suffix.mp (by rwa [List.reverse_reverse])

theorem allBlank_of_trimEnd {s : List Char} (h : trimEnd s = []) : AllBlank s := by
  unfold trimEnd trimStart at h
  rw [List.reverse_eq_nil_iff, List.dropWhile_eq_nil_iff] at h
  exact fun c hc => h c (List.mem_reverse.mpr hc)

theorem trimEnd_append_of_last {c : Char} (hc : isBlank c = false) (r s : List Char) :
    trimEnd (r ++ [c] ++ s) = r ++ [c] ++ trimEnd s := by
  unfold trimEnd trimStart
  rw [List.reverse_append, List.dropWhile_append]
  by_cases h : (List.dropWhile isBlank s.reverse).isEmpty = true
  · rw [if_pos h]
    rw [List.isEmpty_iff] at h
    have hr := trimEnd_concat hc r
    unfold trimEnd trimStart at hr
    rw [hr, h]
    simp
  · rw [if_neg h, List.reverse_append, List.reverse_reverse]

/-! ## Trimming -/

theorem trim_blank_append {w : List Char} (hw : AllBlank w) (s : List Char) :
    trim (w ++ s) = trim s := by
  unfold trim
  rw [trimStart_surrounded hw]

theorem trim_append_blank {w : List Char} (hw : AllBlank w) (s : List Char) :
    trim (s ++ w) = trim s := by
  unfold trim
  by_cases h : trimStart s = []
  · have hs : AllBlank s := fun c hc => List.dropWhile_eq_nil_iff.mp h c hc
    rw [trimStart_surrounded hs, h, trimStart_allBlank hw]
  · have hd : trimStart (s ++ w) = trimStart s ++ w := by
      unfold trimStart at h ⊢
      rw [List.dropWhile_append, if_neg (by simpa [List.isEmpty_iff] using h)]
    rw [hd, trimEnd_append_blank hw]

theorem trim_concat {c : Char} (hc : isBlank c = false) (text : List Char) :
    trim (text ++ [c]) = trimStart text ++ [c] := by
  have start : trimStart (text ++ [c]) = trimStart text ++ [c] := by
    unfold trimStart
    rw [List.dropWhile_append]
    split
    · next nothing =>
      rw [List.isEmpty_iff.mp nothing, List.nil_append, ← trimStart, trimStart_cons hc]
    · rfl
  rw [trim, start, trimEnd_concat hc]

theorem trim_surrounded {before after : List Char} (hb : AllBlank before) (ha : AllBlank after)
    (s : List Char) : trim (before ++ s ++ after) = trim s := by
  rw [trim_append_blank ha, trim_blank_append hb]

theorem exists_trimStart (s : List Char) : ∃ before, AllBlank before ∧ s = before ++ trimStart s :=
  ⟨s.takeWhile isBlank, fun _ hc => List.mem_takeWhile_imp hc,
    List.takeWhile_append_dropWhile.symm⟩

theorem exists_trimEnd (s : List Char) : ∃ after, AllBlank after ∧ s = trimEnd s ++ after := by
  obtain ⟨after, ha, last⟩ := exists_trimStart s.reverse
  refine ⟨after.reverse, ha.reverse, ?_⟩
  calc s = s.reverse.reverse := s.reverse_reverse.symm
    _ = (after ++ trimStart s.reverse).reverse := by rw [← last]
    _ = trimEnd s ++ after.reverse := List.reverse_append

theorem exists_trim (s : List Char) :
    ∃ before after, AllBlank before ∧ AllBlank after ∧ s = before ++ trim s ++ after := by
  obtain ⟨before, hb, start⟩ := exists_trimStart s
  obtain ⟨after, ha, last⟩ := exists_trimEnd (trimStart s)
  refine ⟨before, after, hb, ha, ?_⟩
  calc s = before ++ trimStart s := start
    _ = before ++ (trimEnd (trimStart s) ++ after) := by rw [← last]
    _ = before ++ trim s ++ after := (List.append_assoc before _ after).symm

theorem length_trim_lt {s : List Char} (h : trim s ≠ s) : (trim s).length < s.length := by
  obtain ⟨before, after, -, -, whole⟩ := exists_trim s
  have lengths := congrArg List.length whole
  rw [List.length_append, List.length_append] at lengths
  by_contra long
  have none : before.length = 0 ∧ after.length = 0 := by omega
  rw [List.length_eq_zero_iff, List.length_eq_zero_iff] at none
  rw [none.1, none.2, List.nil_append, List.append_nil] at whole
  exact h whole.symm

theorem trim_trim (s : List Char) : trim (trim s) = trim s := by
  obtain ⟨before, after, hb, ha, whole⟩ := exists_trim s
  calc trim (trim s) = trim (before ++ trim s ++ after) := (trim_surrounded hb ha _).symm
    _ = trim s := by rw [← whole]

theorem trimmed_trimmed (s : String) : trimmed (trimmed s) = trimmed s := by
  rw [trimmed, trimmed, String.toList_ofList, trim_trim]

theorem length_trimmed_lt {s : String} (h : trimmed s ≠ s) :
    (trimmed s).toList.length < s.toList.length := by
  rw [trimmed, String.toList_ofList]
  apply length_trim_lt
  intro same
  exact h (by rw [trimmed, same, String.ofList_toList])

theorem mem_of_mem_trim {s : List Char} {c : Char} (h : c ∈ trim s) : c ∈ s := by
  obtain ⟨before, after, -, -, whole⟩ := exists_trim s
  rw [whole]
  exact List.mem_append_left _ (List.mem_append_right _ h)

theorem AllBlank.not_mem {w : List Char} (hw : AllBlank w) {c : Char} (hc : isBlank c = false) :
    c ∉ w := fun hm => by
  rw [hw c hm] at hc
  cases hc

theorem count_trim {c : Char} (hc : isBlank c = false) (s : List Char) :
    (trim s).count c = s.count c := by
  obtain ⟨before, after, hb, ha, whole⟩ := exists_trim s
  have none := List.count_eq_zero.mpr (hb.not_mem hc)
  have none' := List.count_eq_zero.mpr (ha.not_mem hc)
  have counts := congrArg (List.count c) whole
  rw [List.count_append, List.count_append] at counts
  omega

theorem mem_trim {s : List Char} {c : Char} (hc : isBlank c = false) (h : c ∈ s) : c ∈ trim s := by
  rw [← List.count_pos_iff, count_trim hc, List.count_pos_iff]
  exact h

namespace Tight

theorem trimStart_append {p : List Char} (hp : Tight p) (s : List Char) :
    trimStart (p ++ s) = p ++ s := by
  obtain ⟨c, r, rfl, hc⟩ := hp.first
  exact trimStart_cons hc (r ++ s)

theorem trim_append {p : List Char} (hp : Tight p) (s : List Char) :
    trim (p ++ s) = p ++ trimEnd s := by
  unfold trim
  rw [hp.trimStart_append]
  obtain ⟨r, c, rfl, hc⟩ := hp.last
  exact trimEnd_append_of_last hc r s

theorem trim_eq {s : List Char} (hs : Tight s) : trim s = s := by
  have h := hs.trim_append []
  rw [List.append_nil] at h
  rw [h, show trimEnd [] = [] from rfl, List.append_nil]

theorem of_ends {first last : Char} (hf : isBlank first = false) (hl : isBlank last = false)
    (s : List Char) : Tight (first :: s ++ [last]) :=
  ⟨⟨first, s ++ [last], rfl, hf⟩, ⟨first :: s, last, rfl, hl⟩⟩

theorem of_none_blank {s : List Char} (hne : s ≠ []) (hs : ∀ c ∈ s, isBlank c = false) :
    Tight s := by
  constructor
  · cases s with
    | nil => exact absurd rfl hne
    | cons c r => exact ⟨c, r, rfl, hs c List.mem_cons_self⟩
  · refine ⟨s.dropLast, s.getLast hne, (List.dropLast_concat_getLast hne).symm, ?_⟩
    exact hs _ (List.getLast_mem hne)

theorem singleton {c : Char} (hc : isBlank c = false) : Tight [c] :=
  ⟨⟨c, [], rfl, hc⟩, ⟨[], c, rfl, hc⟩⟩

theorem of_trim {s : List Char} (hne : s ≠ []) (h : trim s = s) : Tight s := by
  -- With white space at an end, what is left without it would be too short.
  have whole {r : List Char} (hr : trim r = s) : s.length ≤ r.length := by
    obtain ⟨before, after, -, -, e⟩ := exists_trim r
    have := congrArg List.length e
    rw [hr, List.length_append, List.length_append] at this
    omega
  constructor
  · obtain ⟨c, r, rfl⟩ := List.exists_cons_of_ne_nil hne
    refine ⟨c, r, rfl, Bool.eq_false_iff.mpr fun hc => ?_⟩
    have blank : AllBlank [c] := List.forall_mem_singleton.mpr hc
    have := whole ((trim_blank_append blank r).symm.trans h)
    rw [List.length_cons] at this
    omega
  · obtain ⟨r, c, rfl⟩ := (List.eq_nil_or_concat' s).resolve_left hne
    refine ⟨r, c, rfl, Bool.eq_false_iff.mpr fun hc => ?_⟩
    have blank : AllBlank [c] := List.forall_mem_singleton.mpr hc
    have := whole ((trim_append_blank blank r).symm.trans h)
    rw [List.length_append, List.length_singleton] at this
    omega

end Tight

/-! ## Between two pieces -/

theorem between?_iff {opening closing text middle : List Char} :
    between? opening closing text = some middle ↔ text = opening ++ middle ++ closing := by
  unfold between?
  rw [Option.bind_eq_some_iff]
  constructor
  · rintro ⟨rest, h₁, h₂⟩
    rw [List.isPrefixOf?_eq_some_iff_append_eq] at h₁
    rw [List.isSuffixOf?_eq_some_iff_append_eq] at h₂
    rw [← h₁, ← h₂, List.append_assoc]
  · intro h
    refine ⟨middle ++ closing, ?_, ?_⟩
    · rw [List.isPrefixOf?_eq_some_iff_append_eq, h, List.append_assoc]
    · rw [List.isSuffixOf?_eq_some_iff_append_eq]

theorem between?_append (opening middle closing : List Char) :
    between? opening closing (opening ++ middle ++ closing) = some middle := between?_iff.mpr rfl

theorem between?_none_of_head {c d : Char} (h : c ≠ d) (opening closing rest : List Char) :
    between? (c :: opening) closing (d :: rest) = none := by
  cases hm : between? (c :: opening) closing (d :: rest) with
  | none => rfl
  | some middle =>
    have := between?_iff.mp hm
    simp only [List.cons_append, List.cons.injEq] at this
    exact absurd this.1.symm h

/-! ## Between the outer occurrences of a character -/

theorem dropWhile_ne_append {mark : Char} {before : List Char} (h : mark ∉ before)
    (rest : List Char) : (before ++ mark :: rest).dropWhile (· != mark) = mark :: rest := by
  have others : ∀ c ∈ before, (c != mark) = true := fun c hc => by
    simpa using ne_of_mem_of_not_mem hc h
  rw [List.dropWhile_append_of_pos others, List.dropWhile_cons_of_neg (by simp)]

theorem betweenOuter?_append {mark : Char} {before after : List Char} (hb : mark ∉ before)
    (ha : mark ∉ after) (inner : List Char) :
    betweenOuter? mark (before ++ mark :: (inner ++ mark :: after)) = some inner := by
  have turned : (mark :: (inner ++ mark :: after)).reverse =
      after.reverse ++ mark :: (mark :: inner).reverse := by simp
  have upToMark : ((mark :: (inner ++ mark :: after)).reverse.dropWhile (· != mark)).reverse =
      mark :: (inner ++ [mark]) := by
    rw [turned, dropWhile_ne_append (by simpa using ha)]
    simp
  unfold betweenOuter?
  simp only [dropWhile_ne_append hb, upToMark]
  cases inner with
  | nil => rfl
  | cons c inner =>
    have shortened : (c :: inner ++ [mark]).dropLast = c :: inner := List.dropLast_concat
    exact congrArg some shortened

/-- What is free of a character does not matter around the occurrences of that character. -/
theorem betweenOuter?_surrounded {mark : Char} {before after : List Char} (hb : mark ∉ before)
    (ha : mark ∉ after) (s : List Char) :
    betweenOuter? mark (before ++ s ++ after) = betweenOuter? mark s := by
  have others {w : List Char} (hw : mark ∉ w) : ∀ c ∈ w, (c != mark) = true := fun c hc => by
    simpa using ne_of_mem_of_not_mem hc hw
  unfold betweenOuter?
  by_cases hm : mark ∈ s
  · obtain ⟨first, rest, rfl, free⟩ := List.eq_append_cons_of_mem hm
    have whole : before ++ (first ++ mark :: rest) ++ after =
        (before ++ first) ++ mark :: (rest ++ after) := by simp
    have turned : (mark :: (rest ++ after)).reverse = after.reverse ++ (mark :: rest).reverse := by
      simp
    rw [whole]
    simp only [dropWhile_ne_append free, dropWhile_ne_append (List.not_mem_append hb free), turned,
      List.dropWhile_append_of_pos (others (by simpa using ha : mark ∉ after.reverse))]
  · have free : mark ∉ before ++ s ++ after :=
      List.not_mem_append (List.not_mem_append hb hm) ha
    simp only [List.dropWhile_eq_nil_iff.mpr (others free),
      List.dropWhile_eq_nil_iff.mpr (others hm)]

theorem betweenOuter?_trim {mark : Char} (hm : isBlank mark = false) (s : List Char) :
    betweenOuter? mark (trim s) = betweenOuter? mark s := by
  obtain ⟨before, after, hb, ha, whole⟩ := exists_trim s
  calc betweenOuter? mark (trim s) = betweenOuter? mark (before ++ trim s ++ after) :=
        (betweenOuter?_surrounded (hb.not_mem hm) (ha.not_mem hm) _).symm
    _ = betweenOuter? mark s := by rw [← whole]

end ScriptBridge.Text
