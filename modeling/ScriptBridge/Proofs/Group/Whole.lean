import ScriptBridge.Proofs.Group.Literals
/-!
Which accepted texts are one group.

Reading a text from left to right, passing over its literals, the braces outside of them open and
close groups (`braces`); a text is one group if its first brace is closed by its last character and
not before (`IsGroup`). The scanner looks at the end of a text only. It accepts a text in which as
many braces are opened as closed, those in literals counted too, and in which no literal stays open.

So an accepted text may go on after its first group, and it is one group exactly if it does not, and
if the braces in its literals cancel each other (`accepted_group`). What follows the first group is
scanned by itself (`segments?_group_append`): later groups add their items, and what stands outside
of groups and literals leaves no trace (`segments?_group_plain`).
-/
namespace ScriptBridge.Group

open Text

/-- How many braces a text opens and leaves open, of those in literals or of those outside. -/
def braces (inLiterals : Bool) (s : Scanner) : List Char → Int
  | [] => 0
  | c :: rest => (if s.quoted = inLiterals then brace c else 0) + braces inLiterals (s.step c) rest

/-- A text whose first character opens a group that its last one closes, and none before. -/
structure IsGroup (text : List Char) : Prop where
  opens : text.head? = some '\x7b'
  closes : braces false {} text = 0
  inside : ∀ n < text.length, 0 < n → 1 ≤ braces false {} (text.take n)

instance (text : List Char) : Decidable (IsGroup text) :=
  decidable_of_iff (text.head? = some '\x7b' ∧ braces false {} text = 0 ∧
      ∀ n < text.length, 0 < n → 1 ≤ braces false {} (text.take n))
    ⟨fun h => ⟨h.1, h.2.1, h.2.2⟩, fun h => ⟨h.opens, h.closes, h.inside⟩⟩

/-! ## Counting braces -/

theorem braces_append (inLiterals : Bool) (s : Scanner) (a b : List Char) :
    braces inLiterals s (a ++ b) = braces inLiterals s a + braces inLiterals (s.run a) b := by
  induction a generalizing s with
  | nil => simp [braces]
  | cons c a ih =>
    rw [List.cons_append, braces, braces, ih, run_cons]
    omega

theorem braces_braceless (inLiterals : Bool) {a : List Char} (ha : Braceless a) (s : Scanner) :
    braces inLiterals s a = 0 := by
  induction a generalizing s with
  | nil => rfl
  | cons c a ih =>
    have hc : brace c = 0 := ha c List.mem_cons_self
    rw [braces, ih fun x hx => ha x (List.mem_cons_of_mem c hx), hc]
    simp

/-- The scanner counts all braces, in literals and outside. -/
theorem run_depth (s : Scanner) (text : List Char) :
    (s.run text).depth = s.depth + braces false s text + braces true s text := by
  induction text generalizing s with
  | nil => simp [braces]
  | cons c text ih =>
    have step : (s.step c).depth = s.depth + brace c := by
      rw [step_mk]
    rw [run_cons, ih, step, braces, braces]
    cases s.quoted <;> simp <;> omega

theorem brace_bounds (c : Char) : -1 ≤ brace c ∧ brace c ≤ 1 := by
  unfold brace
  split
  · decide
  · split <;> decide

theorem eq_of_brace_eq_neg_one {c : Char} (h : brace c = -1) : c = '\x7d' := by
  unfold brace at h
  split at h
  · contradiction
  · split at h
    · assumption
    · contradiction

theorem braceless_of_allBlank {a : List Char} (ha : AllBlank a) : Braceless a := by
  apply braceless_of_not_mem
  constructor
  · intro h
    exact absurd (ha _ h) (by decide)
  · intro h
    exact absurd (ha _ h) (by decide)

/-! ## The first group -/

/-- Where a text takes the number of open braces to zero or below, it first takes it to zero. -/
theorem exists_return {s : Scanner} {depth : Int} {text : List Char} (inside : 1 ≤ depth)
    (returns : depth + braces false s text ≤ 0) : ∃ group rest, text = group ++ rest ∧
      depth + braces false s group = 0 ∧
      ∀ n < group.length, 1 ≤ depth + braces false s (group.take n) := by
  induction text generalizing s depth with
  | nil =>
    simp only [braces] at returns
    omega
  | cons c text ih =>
    have bounds := brace_bounds c
    have lower : -1 ≤ (if s.quoted = false then brace c else 0) := by split <;> omega
    by_cases out : depth + (if s.quoted = false then brace c else 0) ≤ 0
    · refine ⟨[c], text, rfl, ?_, fun n hn => ?_⟩
      · simp only [braces]
        omega
      · obtain rfl : n = 0 := by simpa using hn
        simpa [braces] using inside
    · rw [braces, ← Int.add_assoc] at returns
      obtain ⟨group, rest, rfl, closed, within⟩ := ih (by omega) returns
      refine ⟨c :: group, rest, rfl, ?_, fun n hn => ?_⟩
      · rw [braces]
        omega
      · cases n with
        | zero => simpa [braces] using inside
        | succ n =>
          have := within n (by simpa using hn)
          rw [List.take_succ_cons, braces]
          omega

theorem exists_group {text : List Char} (opens : text.head? = some '\x7b')
    (closes : braces false {} text = 0) : ∃ group rest, text = group ++ rest ∧ IsGroup group := by
  obtain ⟨tail, rfl⟩ := List.head?_eq_some_iff.mp opens
  have opened (t : List Char) :
      braces false {} ('\x7b' :: t) = 1 + braces false ⟨1, false, false⟩ t := rfl
  rw [opened] at closes
  obtain ⟨body, rest, rfl, closed, within⟩ := exists_return (Int.le_refl 1) (Int.le_of_eq closes)
  refine ⟨'\x7b' :: body, rest, rfl, rfl, (opened body).trans closed, fun n hn positive => ?_⟩
  obtain ⟨m, rfl⟩ := Nat.exists_eq_succ_of_ne_zero (Nat.pos_iff_ne_zero.mp positive)
  rw [List.take_succ_cons, opened]
  exact within m (by simpa using hn)

namespace IsGroup

variable {group other : List Char}

theorem eq_of_isPrefix (hg : IsGroup group) (ho : IsGroup other) (h : group <+: other) :
    group = other := by
  refine h.eq_of_length (Nat.le_antisymm h.length_le (Nat.le_of_not_lt fun shorter => ?_))
  have nonempty : 0 < group.length := by
    obtain ⟨tail, rfl⟩ := List.head?_eq_some_iff.mp hg.opens
    simp
  have open' := ho.inside group.length shorter nonempty
  rw [← List.prefix_iff_eq_take.mp h, hg.closes] at open'
  exact absurd open' (by decide)

theorem unique {rest rest' : List Char} (hg : IsGroup group) (ho : IsGroup other)
    (h : group ++ rest = other ++ rest') : group = other := by
  rcases List.prefix_or_prefix_of_prefix (List.prefix_append group rest)
    (h ▸ List.prefix_append other rest') with shorter | longer
  · exact hg.eq_of_isPrefix ho shorter
  · exact (ho.eq_of_isPrefix hg longer).symm

theorem exists_last (hg : IsGroup group) :
    ∃ body, group = body ++ ['\x7d'] ∧ (Scanner.run {} body).quoted = false := by
  obtain rfl | ⟨body, c, rfl⟩ := group.eq_nil_or_concat'
  · cases hg.opens
  have closes := hg.closes
  rw [braces_append] at closes
  simp only [braces] at closes
  cases body with
  | nil =>
    obtain rfl : c = '\x7b' := by simpa using hg.opens
    exact absurd closes (by decide)
  | cons d body =>
    have open' := hg.inside (d :: body).length (by simp) (by simp)
    rw [List.take_left] at open'
    have bounds := brace_bounds c
    split at closes
    · next unquoted =>
      obtain rfl := eq_of_brace_eq_neg_one (c := c) (by omega)
      exact ⟨d :: body, rfl, unquoted⟩
    · omega

theorem trimEnd_append (hg : IsGroup group) {blank : List Char} (hb : AllBlank blank) :
    trimEnd (group ++ blank) = group := by
  obtain ⟨body, rfl, -⟩ := hg.exists_last
  rw [trimEnd_append_blank hb, trimEnd_concat (by decide)]

end IsGroup

/-- The first group of a text is all of it exactly if only white space follows. -/
theorem isGroup_trimEnd_iff (text : List Char) : IsGroup (trimEnd text) ↔
    text.head? = some '\x7b' ∧ braces false {} text = 0 ∧
      ∀ group rest, text = group ++ rest → IsGroup group → AllBlank rest := by
  constructor
  · intro hg
    obtain ⟨blank, hb, e⟩ := exists_trimEnd text
    refine ⟨?_, ?_, fun group rest split ho => ?_⟩
    · rw [e, List.head?_append, hg.opens]
      rfl
    · rw [e, braces_append, hg.closes, braces_braceless false (braceless_of_allBlank hb)]
      rfl
    · obtain rfl := hg.unique ho (e.symm.trans split)
      have same : blank = rest := List.append_cancel_left (e.symm.trans split)
      exact same ▸ hb
  · rintro ⟨opens, closes, alone⟩
    obtain ⟨group, rest, rfl, hg⟩ := exists_group opens closes
    rw [hg.trimEnd_append (alone group rest rfl hg)]
    exact hg

/-! ## What is scanned after it -/

theorem segmentsFrom_ends {s : Scanner} {a : List Char} {c : Char}
    (ends : role true ((s.run a).step c) c false = .ends) (current rest : List Char) :
    (segmentsFrom true s current (a ++ c :: rest)).1 =
      (segmentsFrom true s current (a ++ [c])).1 ++
        (segmentsFrom true ((s.run a).step c) [] rest).1 := by
  have hr (isLast : Bool) : role true ((s.run a).step c) c isLast = .ends := by
    rw [← ends, role_braced, role_braced]
  obtain ⟨complete, current', h⟩ := exists_segmentsFrom_append true s current a
  rw [h _ (List.cons_ne_nil c rest), h _ (List.cons_ne_nil c []), List.append_assoc]
  simp only [segmentsFrom, hr]
  rw [← pushSegment_append, List.nil_append]

theorem segments?_braced {text : List Char} (opens : text.head? = some '\x7b') :
    segments? text = if (Scanner.run {} text).isBalanced then
      some (segmentsFrom true {} [] text).1 else none := by
  rw [segments?_eq, opens, beq_self_eq_true]

/-- At the end of a group whose literals do not count, the scanner is where it started. -/
theorem IsGroup.exists_close {group : List Char} (hg : IsGroup group)
    (cancel : braces true {} group = 0) :
    ∃ body, group = body ++ ['\x7d'] ∧ (Scanner.run {} body).step '\x7d' = {} := by
  obtain ⟨body, rfl, unquoted⟩ := hg.exists_last
  have depth := run_depth {} (body ++ ['\x7d'])
  rw [hg.closes, cancel, run_append, run_cons, run_nil] at depth
  refine ⟨body, rfl, ?_⟩
  have step : (Scanner.run {} body).step '\x7d' =
      ⟨((Scanner.run {} body).step '\x7d').depth, (Scanner.run {} body).quoted, false⟩ := by
    simp [Scanner.step]
  rw [step, depth, unquoted]
  rfl

theorem segments?_group_append {group rest : List Char} (hg : IsGroup group)
    (cancel : braces true {} group = 0)
    (balanced : (Scanner.run {} (group ++ rest)).isBalanced = true) :
    ∃ own, segments? group = some own ∧
      segments? (group ++ rest) = some (own ++ (segmentsFrom true {} [] rest).1) := by
  have opens : (group ++ rest).head? = some '\x7b' := by
    rw [List.head?_append, hg.opens]
    rfl
  rw [segments?_braced hg.opens, segments?_braced opens, if_pos balanced]
  obtain ⟨body, rfl, closed⟩ := hg.exists_close cancel
  have complete : (Scanner.run {} (body ++ ['\x7d'])).isBalanced = true := by
    rw [run_append, run_cons, run_nil, closed]
    rfl
  have ends : role true ((Scanner.run {} body).step '\x7d') '\x7d' false = .ends := by
    rw [closed]
    decide
  refine ⟨_, if_pos complete, ?_⟩
  rw [List.append_assoc, List.singleton_append, segmentsFrom_ends ends, closed]

theorem uncut_outside {rest : List Char} (plain : ∀ c ∈ rest, brace c = 0 ∧ c ≠ '"')
    (afterBackslash : Bool) : Uncut ⟨0, false, afterBackslash⟩ rest ∧
      (Scanner.run ⟨0, false, afterBackslash⟩ rest).isBalanced = true := by
  induction rest generalizing afterBackslash with
  | nil => exact ⟨trivial, rfl⟩
  | cons c rest ih =>
    rw [List.forall_mem_cons] at plain
    obtain ⟨⟨hc, hq⟩, plain⟩ := plain
    have step : Scanner.step ⟨0, false, afterBackslash⟩ c = ⟨0, false, c == '\\'⟩ := by
      simp [step_mk, hc, hq]
    obtain ⟨uncut, balanced⟩ := ih plain (c == '\\')
    rw [Uncut, run_cons, step]
    refine ⟨⟨?_, uncut⟩, balanced⟩
    rw [role_braced]
    simp [(ne_of_brace hc).2]

/-- What follows a group and has neither braces nor quotes leaves no trace. -/
theorem segments?_group_plain {group rest : List Char} (hg : IsGroup group)
    (cancel : braces true {} group = 0) (plain : ∀ c ∈ rest, brace c = 0 ∧ c ≠ '"') :
    segments? (group ++ rest) = segments? group := by
  obtain ⟨uncut, balanced⟩ := uncut_outside plain false
  have whole : (Scanner.run {} (group ++ rest)).isBalanced = true := by
    obtain ⟨body, rfl, closed⟩ := hg.exists_close cancel
    rw [run_append, run_append, run_cons, run_nil, closed]
    exact balanced
  obtain ⟨own, alone, followed⟩ := segments?_group_append hg cancel whole
  rw [followed, alone, segmentsFrom_uncut uncut, List.append_nil]

/-! ## Accepted texts -/

theorem isBalanced_of_accepted {text : String} (opens : text.toList.head? = some '\x7b')
    (accepted : (∃ items, splitList text = .ok items) ∨
      ∃ entries, splitRecord text = .ok entries) :
    (Scanner.run {} text.toList).isBalanced = true := by
  rw [splitList, splitRecord, segments?_braced opens] at accepted
  cases balanced : (Scanner.run {} text.toList).isBalanced with
  | true => rfl
  | false => simp [balanced] at accepted

/-- A text that starts with a brace and is accepted is one group, up to white space after it,
exactly if the braces in its literals cancel each other and nothing but white space follows its
first group. The segments of a first group whose literals do not count are followed by those of the
rest. -/
theorem accepted_group {text : String} (opens : text.toList.head? = some '\x7b')
    (accepted : (∃ items, splitList text = .ok items) ∨
      ∃ entries, splitRecord text = .ok entries) :
    (IsGroup (trimEnd text.toList) ↔ braces true {} text.toList = 0 ∧
      ∀ group rest, text.toList = group ++ rest → IsGroup group → AllBlank rest) ∧
    ∀ group rest, text.toList = group ++ rest → IsGroup group → braces true {} group = 0 →
      ∃ own, segments? group = some own ∧
        segments? text.toList = some (own ++ (segmentsFrom true {} [] rest).1) := by
  have balanced := isBalanced_of_accepted opens accepted
  constructor
  · have closed : (Scanner.run {} text.toList).depth = 0 := by
      rw [Scanner.isBalanced, Bool.and_eq_true, beq_iff_eq] at balanced
      exact balanced.1
    rw [run_depth] at closed
    have cancel : braces false {} text.toList = 0 ↔ braces true {} text.toList = 0 := by
      simp only at closed
      omega
    rw [isGroup_trimEnd_iff, cancel]
    exact and_iff_right opens
  · intro group rest split hg cancel
    rw [split] at balanced ⊢
    exact segments?_group_append hg cancel balanced

/-- Two lists with a letter between them are read as one list without the letter. -/
theorem accepted_group_followed : splitList "\x7b1\x7d x \x7b2\x7d" = .ok ["1", "2"] ∧
    ¬IsGroup (trimEnd "\x7b1\x7d x \x7b2\x7d".toList) := by
  have accepted : splitList "\x7b1\x7d x \x7b2\x7d" = .ok ["1", "2"] := by decide
  have first : IsGroup "\x7b1\x7d".toList := by decide
  refine ⟨accepted, fun whole => ?_⟩
  have follows := ((accepted_group (by decide) (.inl ⟨_, accepted⟩)).1.mp whole).2
  exact absurd (follows "\x7b1\x7d".toList " x \x7b2\x7d".toList (by decide) first) (by decide)

end ScriptBridge.Group
