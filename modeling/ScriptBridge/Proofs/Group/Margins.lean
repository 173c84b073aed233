import ScriptBridge.Proofs.Group.Scan
/-!
White space around lists and records.

Whether a text stands in braces is asked of its first character, and the last segment of a text
without braces ends with its last character. White space around the text can take either from it.
With white space before it, a text in braces is read as one without, brace and all. With white space
after a text without braces, a comma or brace at its end divides and is dropped, where at the very
end it would belong to the last segment.

Where neither happens, white space around a text leaves its segments as they are
(`segments?_surrounded`). Where one of the two does (`Disturbs`), the segments of a balanced text
hold more braces or fewer commas or braces than before (`count_segments_ne`).
-/
namespace ScriptBridge.Group

open Text

/-- Whether white space around a text takes a brace from its start, or a comma or brace from its
end. -/
def Disturbs (before text after : List Char) : Prop :=
  if text.head? = some '\x7b' then before ≠ []
  else after ≠ [] ∧ (text.getLast? = some ',' ∨ text.getLast? = some '\x7d')

instance (before text after : List Char) : Decidable (Disturbs before text after) :=
  inferInstanceAs (Decidable (if text.head? = some '\x7b' then before ≠ []
    else after ≠ [] ∧ (text.getLast? = some ',' ∨ text.getLast? = some '\x7d')))

/-! ## Text without braces -/

theorem role_unbraced (s : Scanner) (c : Char) (isLast : Bool) :
    role false s c isLast =
      if s.quoted then .belongs
      else if isLast then .endsWithin
      else if c = ',' ∨ (s.depth = 0 ∧ c = '\x7d') then .ends
      else .belongs := by
  by_cases hc : c = ',' <;> simp [role, hc]

theorem role_unbraced_ne_passed (s : Scanner) (c : Char) (isLast : Bool) :
    role false s c isLast ≠ .passed := by
  rw [role_unbraced]
  split
  · simp
  · split
    · simp
    · split <;> simp

theorem pushSegment_congr {a b : List Char} (h : trim a = trim b) (segments : List (List Char)) :
    pushSegment a segments = pushSegment b segments := by
  simp only [pushSegment, h]

theorem segmentsFrom_append_blank {w : List Char} (hw : AllBlank w) (braced : Bool) (s : Scanner)
    (current text : List Char) :
    (segmentsFrom braced s (current ++ w) text).1 = (segmentsFrom braced s current text).1 := by
  have front (a : List Char) : trim (a ++ w).reverse = trim a.reverse := by
    rw [List.reverse_append, trim_blank_append hw.reverse]
  induction text generalizing s current with
  | nil => rfl
  | cons c text ih =>
    rw [segmentsFrom, segmentsFrom]
    cases role braced (s.step c) c text.isEmpty with
    | belongs => exact ih (s.step c) (c :: current)
    | passed => exact ih (s.step c) current
    | ends => exact pushSegment_congr (front current) _
    | endsWithin => exact pushSegment_congr (front (c :: current)) _

section
variable {w : List Char} (hw : AllBlank w)
include hw

/-- White space outside of quotes belongs to the segment in which it stands. -/
theorem role_blank {s : Scanner} (hq : s.quoted = false) {c : Char} (hc : c ∈ w) (isLast : Bool) :
    role false (s.step c) c isLast = if isLast then .endsWithin else .belongs := by
  have inert := inert_of_allBlank hw c hc
  have other : ¬(c = ',' ∨ ((s.step c).depth = 0 ∧ c = '\x7d')) := by
    simp only [isInert, Bool.and_eq_true, bne_iff_ne, ne_eq] at inert
    simp [inert]
  rw [role_unbraced, if_neg other, step_inert inert, hq, if_neg Bool.false_ne_true]

theorem isBalanced_run_blank (s : Scanner) : (s.run w).isBalanced = s.isBalanced := by
  cases w with
  | nil => rfl
  | cons c w =>
    have inert := List.forall_mem_cons.mp (inert_of_allBlank hw)
    rw [run_cons, step_inert inert.1, run_inert inert.2 s.depth s.quoted]
    rfl

theorem segmentsFrom_blank {s : Scanner} (hq : s.quoted = false) (hne : w ≠ [])
    (current : List Char) :
    (segmentsFrom false s current w).1 = pushSegment current.reverse [] := by
  induction w generalizing s current with
  | nil => exact absurd rfl hne
  | cons c w ih =>
    have blank : AllBlank [c] := List.forall_mem_singleton.mpr (hw c List.mem_cons_self)
    have pushed : pushSegment (c :: current).reverse [] = pushSegment current.reverse [] := by
      rw [List.reverse_cons]
      exact pushSegment_congr (trim_append_blank blank current.reverse) []
    rw [segmentsFrom, role_blank hw hq List.mem_cons_self, ← pushed]
    cases w with
    | nil => rfl
    | cons d w =>
      have unquoted : (s.step c).quoted = false := by
        rw [step_inert (inert_of_allBlank hw c List.mem_cons_self)]
        exact hq
      exact ih (fun x hx => hw x (List.mem_cons_of_mem c hx)) unquoted (by simp) (c :: current)

/-- White space at the start is part of the first segment, where it does not matter. -/
theorem segmentsFrom_blank_append (text : List Char) :
    (segmentsFrom false {} [] (w ++ text)).1 = (segmentsFrom false {} [] text).1 := by
  cases text with
  | nil =>
    rw [List.append_nil]
    by_cases hne : w = []
    · rw [hne]
    · exact segmentsFrom_blank hw rfl hne []
  | cons d text =>
    -- What has been read of the white space stands in the current segment.
    have through {current : List Char} (hc : AllBlank current) :
        (segmentsFrom false {} current (w ++ d :: text)).1 =
          (segmentsFrom false {} [] (d :: text)).1 := by
      induction w generalizing current with
      | nil => exact segmentsFrom_append_blank hc false {} [] (d :: text)
      | cons c w ih =>
        obtain ⟨blank, hw'⟩ := List.forall_mem_cons.mp hw
        have fresh : Scanner.step {} c = {} := step_inert (inert_of_allBlank hw c (by simp)) {}
        have goesOn : (w ++ d :: text).isEmpty = false := by cases w <;> rfl
        rw [List.cons_append, segmentsFrom, role_blank hw rfl List.mem_cons_self, goesOn, fresh]
        exact ih hw' (List.forall_mem_cons.mpr ⟨blank, hc⟩)
    exact through fun _ hc => absurd hc List.not_mem_nil

end

/-! ## White space after a text -/

theorem segmentsFrom_last {s : Scanner} {c : Char} (hq : (s.step c).quoted = false)
    (current : List Char) :
    (segmentsFrom false s current [c]).1 = pushSegment (c :: current).reverse [] := by
  have role : role false (s.step c) c true = .endsWithin := by
    rw [role_unbraced, hq, if_neg Bool.false_ne_true, if_pos rfl]
  rw [segmentsFrom, List.isEmpty_nil, role]
  rfl

/-- With white space after it, the character before the white space ends the last segment if it is a
comma or the last closing brace, and belongs to it otherwise. -/
theorem segmentsFrom_last_blank {after : List Char} (ha : AllBlank after) (hne : after ≠ [])
    {s : Scanner} {c : Char} (hs : (s.step c).isBalanced = true) (current : List Char) :
    (segmentsFrom false s current (c :: after)).1 =
      pushSegment (if c = ',' ∨ c = '\x7d' then current else c :: current).reverse [] := by
  obtain ⟨hd, hq⟩ := Scanner.isBalanced_iff.mp hs
  have goesOn : after.isEmpty = false := by simpa using hne
  by_cases hc : c = ',' ∨ c = '\x7d'
  · have role : role false (s.step c) c false = .ends := by
      simp [role_unbraced, hq, hd, hc]
    rw [segmentsFrom, goesOn, role, if_pos hc]
    exact congrArg (pushSegment current.reverse) (segmentsFrom_blank ha hq hne [])
  · have role : role false (s.step c) c false = .belongs := by
      simp [role_unbraced, hq, hd, hc]
    rw [segmentsFrom, goesOn, role, if_neg hc]
    exact segmentsFrom_blank ha hq hne (c :: current)

/-- White space after a text without braces does not matter if the text ends with another
character. -/
theorem segmentsFrom_unbraced_blank {text after : List Char} (ha : AllBlank after)
    (balanced : (Scanner.run {} text).isBalanced = true)
    (h : ¬(after ≠ [] ∧ (text.getLast? = some ',' ∨ text.getLast? = some '\x7d'))) :
    (segmentsFrom false {} [] (text ++ after)).1 = (segmentsFrom false {} [] text).1 := by
  obtain rfl | ⟨body, c, rfl⟩ := text.eq_nil_or_concat'
  · rw [List.nil_append, ← List.append_nil after, segmentsFrom_blank_append ha]
  by_cases hne : after = []
  · rw [hne, List.append_nil]
  have last : ¬(c = ',' ∨ c = '\x7d') := by simpa [hne] using h
  rw [run_append] at balanced
  obtain ⟨complete, current, goesOn⟩ := exists_segmentsFrom_append false {} [] body
  rw [List.append_assoc, goesOn _ (by simp), goesOn _ (by simp), List.singleton_append,
    segmentsFrom_last_blank ha hne balanced, if_neg last,
    segmentsFrom_last (Scanner.isBalanced_iff.mp balanced).2]

/-- White space after a text in braces does not matter. -/
theorem segmentsFrom_braced_blank {after : List Char} (ha : AllBlank after) (s : Scanner)
    (current text : List Char) :
    (segmentsFrom true s current (text ++ after)).1 = (segmentsFrom true s current text).1 := by
  induction text generalizing s current with
  | nil => exact segmentsFrom_uncut (uncut_inert (inert_of_allBlank ha) s) current
  | cons c text ih =>
    have e : role true (s.step c) c (text ++ after).isEmpty =
        role true (s.step c) c text.isEmpty := by
      rw [role_braced, role_braced]
    rw [List.cons_append, segmentsFrom, segmentsFrom, e]
    cases role true (s.step c) c text.isEmpty with
    | belongs => exact ih (s.step c) (c :: current)
    | passed => exact ih (s.step c) current
    | ends => exact congrArg (pushSegment current.reverse) (ih (s.step c) [])
    | endsWithin => exact congrArg (pushSegment (c :: current).reverse) (ih (s.step c) [])

/-! ## What the segments hold -/

theorem count_pushSegment {x : Char} (hx : isBlank x = false) (segment : List Char)
    (segments : List (List Char)) : (pushSegment segment segments).flatten.count x =
      segment.count x + segments.flatten.count x := by
  rw [← count_trim hx segment]
  simp only [pushSegment]
  split
  · next nothing =>
    rw [List.isEmpty_iff.mp nothing, List.count_nil, Nat.zero_add]
  · rw [List.flatten_cons, List.count_append]

theorem count_segmentsFrom_le {x : Char} (hx : isBlank x = false) (braced : Bool) (s : Scanner)
    (current text : List Char) :
    (segmentsFrom braced s current text).1.flatten.count x ≤ current.count x + text.count x := by
  induction text generalizing s current with
  | nil => exact Nat.zero_le _
  | cons c text ih =>
    rw [segmentsFrom, List.count_cons]
    cases role braced (s.step c) c text.isEmpty with
    | belongs =>
      have := ih (s.step c) (c :: current)
      rw [List.count_cons] at this
      exact Nat.le_trans this (by omega)
    | passed => exact Nat.le_trans (ih (s.step c) current) (by omega)
    | ends =>
      have := ih (s.step c) []
      rw [List.count_nil] at this
      rw [count_pushSegment hx, List.count_reverse]
      omega
    | endsWithin =>
      have := ih (s.step c) []
      rw [List.count_nil] at this
      rw [count_pushSegment hx, List.count_reverse, List.count_cons]
      omega

theorem count_segmentsFrom_unbraced {s : Scanner} {text : List Char}
    (hq : (s.run text).quoted = false) (hne : text ≠ []) (current : List Char) :
    (segmentsFrom false s current text).1.flatten.count '\x7b' =
      current.count '\x7b' + text.count '\x7b' := by
  have visible : isBlank '\x7b' = false := by decide
  induction text generalizing s current with
  | nil => exact absurd rfl hne
  | cons c text ih =>
    rw [run_cons] at hq
    cases text with
    | nil =>
      rw [segmentsFrom_last hq, count_pushSegment visible, List.count_reverse, List.count_cons,
        List.count_cons]
      simp
    | cons d text =>
      have goesOn := ih hq (List.cons_ne_nil d text)
      rw [segmentsFrom, List.isEmpty_cons]
      cases hr : role false (s.step c) c false with
      | belongs =>
        rw [goesOn, List.count_cons, List.count_cons (l := d :: text)]
        omega
      | ends =>
        have other : c ≠ '\x7b' := by
          rintro rfl
          simp [role_unbraced] at hr
        rw [count_pushSegment visible, goesOn, List.count_reverse, List.count_cons_of_ne other,
          List.count_nil, Nat.zero_add]
      | passed => exact absurd hr (role_unbraced_ne_passed _ c false)
      | endsWithin => exact absurd hr (role_ne_endsWithin false _ c)

/-- In braces the first brace is passed over. -/
theorem count_segmentsFrom_braced_lt {text : List Char} (opens : text.head? = some '\x7b') :
    (segmentsFrom true {} [] text).1.flatten.count '\x7b' < text.count '\x7b' := by
  obtain ⟨rest, rfl⟩ := List.head?_eq_some_iff.mp opens
  have passed : segmentsFrom true {} [] ('\x7b' :: rest) =
      segmentsFrom true ⟨1, false, false⟩ [] rest := by
    rw [segmentsFrom, role_braced]
    rfl
  have bound := count_segmentsFrom_le (x := '\x7b') (by decide) true ⟨1, false, false⟩ [] rest
  rw [List.count_nil] at bound
  rw [passed, List.count_cons_self]
  omega

/-- A comma or brace at the end belongs to the last segment, or divides and is dropped. -/
theorem count_segmentsFrom_last {body after : List Char} {c : Char}
    (balanced : (Scanner.run {} (body ++ [c])).isBalanced = true) (ha : AllBlank after)
    (hne : after ≠ []) (last : c = ',' ∨ c = '\x7d') :
    (segmentsFrom false {} [] (body ++ [c])).1.flatten.count c =
      (segmentsFrom false {} [] (body ++ [c] ++ after)).1.flatten.count c + 1 := by
  have visible : isBlank c = false := by rcases last with rfl | rfl <;> decide
  rw [run_append] at balanced
  obtain ⟨complete, current, goesOn⟩ := exists_segmentsFrom_append false {} [] body
  rw [List.append_assoc, goesOn _ (by simp), goesOn _ (by simp), List.singleton_append,
    segmentsFrom_last_blank ha hne balanced, if_pos last,
    segmentsFrom_last (Scanner.isBalanced_iff.mp balanced).2]
  simp only [List.flatten_append, List.count_append, count_pushSegment visible,
    List.count_reverse, List.count_cons_self]
  omega

/-! ## White space around a text -/

section
variable {before text after : List Char} (hb : AllBlank before) (ha : AllBlank after)
include hb ha

theorem isBalanced_surrounded :
    (Scanner.run {} (before ++ text ++ after)).isBalanced = (Scanner.run {} text).isBalanced := by
  rw [List.append_assoc, run_append, run_append, run_blank hb rfl, isBalanced_run_blank ha]

theorem head?_surrounded (h : text.head? ≠ some '\x7b') :
    (before ++ text ++ after).head? ≠ some '\x7b' := by
  have visible : isBlank '\x7b' = false := by decide
  rw [List.head?_append, List.head?_append]
  cases before with
  | cons c before =>
    have := hb.not_mem visible
    simp only [List.mem_cons, not_or] at this
    simpa using Ne.symm this.1
  | nil =>
    cases text with
    | cons c text => simpa using h
    | nil =>
      intro opens
      exact ha.not_mem visible (List.mem_of_mem_head? (by simpa using opens))

/-- Where it takes nothing from the text, white space around a text does not matter. -/
theorem segments?_surrounded
    (h : (Scanner.run {} text).isBalanced = true → ¬Disturbs before text after) :
    segments? (before ++ text ++ after) = segments? text := by
  rw [segments?_eq, segments?_eq, isBalanced_surrounded hb ha]
  split
  · next balanced =>
    have h := h balanced
    by_cases opens : text.head? = some '\x7b'
    · rw [Disturbs, if_pos opens, not_not] at h
      subst h
      have opens' : (text ++ after).head? = some '\x7b' := by rw [List.head?_append, opens]; rfl
      rw [List.nil_append, opens, opens', beq_self_eq_true, segmentsFrom_braced_blank ha]
    · rw [Disturbs, if_neg opens] at h
      rw [beq_eq_false_iff_ne.mpr opens, beq_eq_false_iff_ne.mpr (head?_surrounded hb ha opens),
        List.append_assoc, segmentsFrom_blank_append hb, segmentsFrom_unbraced_blank ha balanced h]
  · rfl

/-- Where it takes a brace or comma from the text, the segments hold another number of them. -/
theorem count_segments_ne (balanced : (Scanner.run {} text).isBalanced = true)
    (h : Disturbs before text after) : ∃ x ∈ ['\x7b', '\x7d', ','], ∃ segments segments',
      segments? text = some segments ∧ segments? (before ++ text ++ after) = some segments' ∧
        segments.flatten.count x ≠ segments'.flatten.count x := by
  rw [segments?_eq, segments?_eq, isBalanced_surrounded hb ha, if_pos balanced, if_pos balanced]
  by_cases opens : text.head? = some '\x7b'
  · rw [Disturbs, if_pos opens] at h
    have visible : isBlank '\x7b' = false := by decide
    have closed : (before ++ text ++ after).head? ≠ some '\x7b' := by
      obtain ⟨c, before, rfl⟩ := List.exists_cons_of_ne_nil h
      intro first
      obtain rfl : c = '\x7b' := by simpa using first
      exact hb.not_mem visible List.mem_cons_self
    have quoted : (Scanner.run {} (before ++ text ++ after)).quoted = false := by
      rw [← isBalanced_surrounded hb ha] at balanced
      exact (Scanner.isBalanced_iff.mp balanced).2
    refine ⟨'\x7b', by simp, _, _, rfl, rfl, Nat.ne_of_lt ?_⟩
    have all := count_segmentsFrom_unbraced quoted (by simp [h]) []
    rw [List.count_append, List.count_append, List.count_eq_zero.mpr (hb.not_mem visible),
      List.count_eq_zero.mpr (ha.not_mem visible), List.count_nil] at all
    have fewer := count_segmentsFrom_braced_lt opens
    rw [opens, beq_self_eq_true, beq_eq_false_iff_ne.mpr closed, all]
    omega
  · rw [Disturbs, if_neg opens] at h
    obtain ⟨hne, last⟩ := h
    obtain rfl | ⟨body, c, rfl⟩ := text.eq_nil_or_concat'
    · simp at last
    have last : c = ',' ∨ c = '\x7d' := by simpa using last
    refine ⟨c, by rcases last with rfl | rfl <;> simp, _, _, rfl, rfl, Nat.ne_of_gt ?_⟩
    have more := count_segmentsFrom_last balanced ha hne last
    rw [beq_eq_false_iff_ne.mpr opens, beq_eq_false_iff_ne.mpr (head?_surrounded hb ha opens),
      List.append_assoc before, segmentsFrom_blank_append hb, more]
    exact Nat.lt_succ_self _

end

end ScriptBridge.Group
