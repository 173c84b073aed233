import Mathlib.Algebra.Group.Nat.Even
import ScriptBridge.Proofs.Group.Margins
/-!
Text without braces.

A quote opens or closes a string literal unless a backslash stands directly before it, so a text is
`Closed` if evenly many of its quotes do. It is `Undivided` if each of its commas stands inside of a
string literal. The commas outside of string literals divide a text into its `Runs`; every text has
runs, and one list of them only.

The scanner reads a closed text as its runs, trimmed and without the blank ones, with one exception:
a comma at the very end of the text does not divide, but belongs to the run before it
(`segmentsFrom_runs`). So the items of a list without braces are its runs exactly if the text does
not end with a comma (`splitList_unbraced_iff`).
-/
namespace ScriptBridge.Group

open Text

/-- How many quotes open or close a string literal: those with no backslash directly before them. -/
def quotes (afterBackslash : Bool) : List Char → Nat
  | [] => 0
  | c :: rest => (if c = '"' ∧ afterBackslash = false then 1 else 0) + quotes (c = '\\') rest

/-- Every string literal that a text opens is closed again. -/
def Closed (text : List Char) : Prop := Even (quotes false text)

instance (text : List Char) : Decidable (Closed text) :=
  inferInstanceAs (Decidable (Even (quotes false text)))

/-- No comma stands outside of string literals. -/
def Undivided (text : List Char) : Prop :=
  ∀ before after, text = before ++ ',' :: after → ¬Closed before

/-- The runs of a text between its commas outside of string literals. -/
inductive Runs : List Char → List (List Char) → Prop
  | last {run : List Char} (undivided : Undivided run) : Runs run [run]
  | more {run rest : List Char} {runs : List (List Char)} (undivided : Undivided run)
      (closed : Closed run) (further : Runs rest runs) : Runs (run ++ ',' :: rest) (run :: runs)

/-- The runs that hold more than white space, trimmed. -/
def filledRuns (runs : List (List Char)) : List (List Char) := (runs.map trim).filter (· ≠ [])

/-- A text without braces. -/
def Unbraced (text : List Char) : Prop := ∀ c ∈ text, c ≠ '\x7b' ∧ c ≠ '\x7d'

-- By the text, and not by all characters there are.
instance (text : List Char) : Decidable (Unbraced text) := List.decidableBAll _ text

/-! ## Quotes -/

/-- The scanner is inside of a string literal after an odd number of quotes. -/
theorem quoted_run (s : Scanner) (text : List Char) :
    (s.run text).quoted = true ↔ (s.quoted = true ↔ Even (quotes s.afterBackslash text)) := by
  induction text generalizing s with
  | nil => simp [quotes]
  | cons c text ih =>
    rw [run_cons, ih, quotes, Nat.even_add]
    by_cases quote : c = '"' ∧ s.afterBackslash = false
    · simp only [Scanner.step, if_pos quote]
      cases s.quoted <;> simp
    · simp only [Scanner.step, if_neg quote]
      simp

theorem closed_iff {text : List Char} : Closed text ↔ (Scanner.run {} text).quoted = false := by
  rw [Closed, ← Bool.not_eq_true, quoted_run]
  simp

theorem closed_blank_append {w : List Char} (hw : AllBlank w) (text : List Char) :
    Closed (w ++ text) ↔ Closed text := by
  rw [closed_iff, closed_iff, run_append, run_blank hw rfl]

theorem closed_concat_comma {text : List Char} : Closed (text ++ [',']) ↔ Closed text := by
  rw [closed_iff, closed_iff, run_append]
  simp [Scanner.step]

theorem closed_comma_append {run : List Char} (closed : Closed run) (rest : List Char) :
    Closed (run ++ ',' :: rest) ↔ Closed rest := by
  rw [closed_iff] at closed
  rw [closed_iff, closed_iff, ← Bool.not_eq_true, ← Bool.not_eq_true, run_append, run_cons,
    quoted_run, quoted_run]
  simp [Scanner.step, closed]

/-! ## Runs -/

theorem undivided_iff_take {text : List Char} :
    Undivided text ↔ ∀ i < text.length, text[i]? = some ',' → ¬Closed (text.take i) := by
  constructor
  · intro undivided i bound comma
    rw [List.getElem?_eq_getElem bound, Option.some_inj] at comma
    refine undivided (text.take i) (text.drop (i + 1)) ?_
    rw [← comma, List.getElem_cons_drop, List.take_append_drop]
  · rintro h before after rfl
    have here := h before.length (by simp) (by simp)
    rwa [List.take_left] at here

instance (text : List Char) : Decidable (Undivided text) :=
  decidable_of_iff _ undivided_iff_take.symm

theorem undivided_nil : Undivided [] := by
  intro before after whole
  simp at whole

theorem undivided_concat {text : List Char} {c : Char} :
    Undivided (text ++ [c]) ↔ Undivided text ∧ (c = ',' → ¬Closed text) := by
  constructor
  · intro h
    constructor
    · rintro before after rfl
      exact h before (after ++ [c]) (by simp)
    · rintro rfl
      exact h text [] rfl
  · rintro ⟨undivided, last⟩ before after whole
    obtain rfl | ⟨after, d, rfl⟩ := after.eq_nil_or_concat'
    · obtain ⟨rfl, same⟩ := List.append_inj' whole rfl
      exact last (List.singleton_inj.mp same)
    · rw [← List.cons_append, ← List.append_assoc] at whole
      exact undivided before after (List.append_inj' whole rfl).1

theorem Undivided.getLast?_ne {text : List Char} (undivided : Undivided text)
    (closed : Closed text) : text.getLast? ≠ some ',' := by
  intro last
  obtain ⟨body, rfl⟩ := List.getLast?_eq_some_iff.mp last
  exact undivided body [] rfl (closed_concat_comma.mp closed)

theorem exists_runs (text : List Char) : ∃ runs, Runs text runs := by
  -- What has been read of the first run stands before the text.
  have onward {read : List Char} (undivided : Undivided read) :
      ∃ runs, Runs (read ++ text) runs := by
    induction text generalizing read with
    | nil =>
      rw [List.append_nil]
      exact ⟨_, .last undivided⟩
    | cons c text ih =>
      by_cases divides : c = ',' ∧ Closed read
      · obtain ⟨rfl, closed⟩ := divides
        obtain ⟨runs, further⟩ := ih undivided_nil
        exact ⟨_, .more undivided closed further⟩
      · have more := ih (undivided_concat.mpr ⟨undivided, fun comma closed =>
          divides ⟨comma, closed⟩⟩)
        rwa [List.append_assoc, List.singleton_append] at more
  exact onward undivided_nil

/-- The first comma that divides a text is found in one place only. -/
theorem eq_of_undivided {run run' rest rest' : List Char} (undivided : Undivided run)
    (undivided' : Undivided run') (closed : Closed run) (closed' : Closed run')
    (same : run ++ ',' :: rest = run' ++ ',' :: rest') : run = run' ∧ rest = rest' := by
  obtain ⟨more, whole, tail⟩ | ⟨more, whole, tail⟩ := List.append_eq_append_iff.mp same
  · cases more with
    | nil => simpa [whole] using tail
    | cons c more =>
      obtain ⟨rfl, -⟩ := List.cons.inj tail
      exact absurd closed (undivided' run more whole)
  · cases more with
    | nil => simpa [whole, eq_comm] using tail
    | cons c more =>
      obtain ⟨rfl, -⟩ := List.cons.inj tail
      exact absurd closed' (undivided run' more whole)

/-- A text has one list of runs only. -/
theorem Runs.unique {text : List Char} {runs other : List (List Char)} (h : Runs text runs)
    (h' : Runs text other) : other = runs := by
  induction h generalizing other with
  | @last run undivided =>
    cases h' with
    | last => rfl
    | more _ closed _ => exact absurd closed (undivided _ _ rfl)
  | @more run rest runs undivided closed further ih =>
    generalize whole : run ++ ',' :: rest = text at h'
    cases h' with
    | last undivided' => exact absurd closed (undivided' run rest whole.symm)
    | more undivided' closed' further' =>
      obtain ⟨rfl, rfl⟩ := eq_of_undivided undivided undivided' closed closed' whole
      rw [ih further']

/-! ## Reading -/

theorem Unbraced.of_append {a b : List Char} (h : Unbraced (a ++ b)) : Unbraced a ∧ Unbraced b :=
  List.forall_mem_append.mp h

theorem depth_unbraced {text : List Char} (unbraced : Unbraced text) (s : Scanner) :
    (s.run text).depth = s.depth := by
  induction text generalizing s with
  | nil => rfl
  | cons c text ih =>
    obtain ⟨⟨opening, closing⟩, unbraced⟩ := List.forall_mem_cons.mp unbraced
    rw [run_cons, ih unbraced]
    simp [Scanner.step, opening, closing]

theorem segmentsFrom_undivided {s : Scanner} {run : List Char} (unbraced : Unbraced run)
    (undivided : ∀ before after, run = before ++ ',' :: after → (s.run before).quoted = true)
    {rest : List Char} (hne : rest ≠ []) (current : List Char) :
    segmentsFrom false s current (run ++ rest) =
      segmentsFrom false (s.run run) (run.reverse ++ current) rest := by
  induction run generalizing s current with
  | nil => rfl
  | cons c run ih =>
    obtain ⟨⟨-, closing⟩, unbraced⟩ := List.forall_mem_cons.mp unbraced
    have goesOn : (run ++ rest).isEmpty = false := by simp [hne]
    have belongs : role false (s.step c) c false = .belongs := by
      rw [role_unbraced]
      by_cases comma : c = ','
      · subst comma
        have quoted : s.quoted = true := undivided [] run rfl
        simp [Scanner.step, quoted]
      · simp [comma, closing]
    have read : (c :: run).reverse ++ current = run.reverse ++ c :: current := by simp
    rw [List.cons_append, segmentsFrom, goesOn, belongs, run_cons, read]
    refine ih unbraced (fun before after whole => ?_) (c :: current)
    exact undivided (c :: before) after (congrArg (c :: ·) whole)

theorem Undivided.quoted_run {run : List Char} (undivided : Undivided run) :
    ∀ before after, run = before ++ ',' :: after → (Scanner.run {} before).quoted = true := by
  intro before after whole
  have unclosed := undivided before after whole
  rwa [closed_iff, Bool.not_eq_false] at unclosed

section
variable {run : List Char} (unbraced : Unbraced run) (undivided : Undivided run)
  (closed : Closed run)
include unbraced undivided closed

theorem segmentsFrom_run : (segmentsFrom false {} [] run).1 = pushSegment run [] := by
  obtain rfl | ⟨body, c, rfl⟩ := run.eq_nil_or_concat'
  · rfl
  · have before := (undivided_concat.mp undivided).1.quoted_run
    rw [closed_iff, run_append] at closed
    rw [segmentsFrom_undivided unbraced.of_append.1 before (List.cons_ne_nil c []),
      segmentsFrom_last closed]
    simp

theorem segmentsFrom_run_comma {rest : List Char} (hne : rest ≠ []) :
    (segmentsFrom false {} [] (run ++ ',' :: rest)).1 =
      pushSegment run (segmentsFrom false {} [] rest).1 := by
  have depth := depth_unbraced unbraced {}
  have after : (Scanner.run {} run).step ',' = {} := by
    simp [Scanner.step, depth, closed_iff.mp closed]
  have ends : role false {} ',' rest.isEmpty = .ends := by
    rw [role_unbraced]
    simp [hne]
  rw [segmentsFrom_undivided unbraced undivided.quoted_run (List.cons_ne_nil ',' rest),
    segmentsFrom, after, ends]
  simp

/-- A comma after a run belongs to it, if it is the last character of the text. -/
theorem segmentsFrom_run_last :
    (segmentsFrom false {} [] (run ++ [','])).1 = pushSegment (run ++ [',']) [] := by
  have after : ((Scanner.run {} run).step ',').quoted = false := by
    simp [Scanner.step, closed_iff.mp closed]
  rw [segmentsFrom_undivided unbraced undivided.quoted_run (List.cons_ne_nil ',' []),
    segmentsFrom_last after]
  simp

end

theorem filledRuns_cons (run : List Char) (runs : List (List Char)) :
    filledRuns (run :: runs) = pushSegment run (filledRuns runs) := by
  rw [filledRuns, List.map_cons, List.filter_cons]
  cases h : trim run <;> simp [pushSegment, h, filledRuns]

/-- A closed text is read as its runs, unless it ends with a comma. Such a comma belongs to the last
run but one, and nothing is after it. -/
theorem segmentsFrom_runs {text : List Char} {runs : List (List Char)} (h : Runs text runs)
    (unbraced : Unbraced text) (closed : Closed text) :
    (text.getLast? ≠ some ',' ∧ (segmentsFrom false {} [] text).1 = filledRuns runs) ∨
      ∃ before last, text.getLast? = some ',' ∧ runs = before ++ [last, []] ∧ Closed last ∧
        (segmentsFrom false {} [] text).1 = filledRuns (before ++ [last ++ [',']]) := by
  induction h with
  | @last run undivided =>
    refine .inl ⟨undivided.getLast?_ne closed, ?_⟩
    rw [segmentsFrom_run unbraced undivided closed, filledRuns_cons]
    rfl
  | @more run rest runs undivided here further ih =>
    obtain ⟨unbraced', rest_unbraced⟩ := unbraced.of_append
    have rest_unbraced : Unbraced rest := (List.forall_mem_cons.mp rest_unbraced).2
    by_cases hne : rest = []
    · subst hne
      obtain rfl := (Runs.last undivided_nil).unique further
      refine .inr ⟨[], run, by simp, rfl, here, ?_⟩
      rw [segmentsFrom_run_last unbraced' undivided here, List.nil_append, filledRuns_cons]
      rfl
    · have same : (run ++ ',' :: rest).getLast? = rest.getLast? := by
        obtain ⟨body, c, rfl⟩ := rest.eq_nil_or_concat'.resolve_left hne
        rw [← List.cons_append, ← List.append_assoc, List.getLast?_concat, List.getLast?_concat]
      have read := segmentsFrom_run_comma unbraced' undivided here hne
      rw [closed_comma_append here] at closed
      rw [same, read]
      obtain ⟨other, read⟩ | ⟨before, last, comma, rfl, ended, read⟩ := ih rest_unbraced closed
      · exact .inl ⟨other, by rw [read, filledRuns_cons]⟩
      · exact .inr ⟨run :: before, last, comma, rfl, ended,
          by rw [read, List.cons_append, filledRuns_cons]⟩

/-! ## Segments -/

theorem Undivided.trim {run : List Char} (undivided : Undivided run) : Undivided (trim run) := by
  obtain ⟨front, back, blank, -, whole⟩ := exists_trim run
  intro before after inside closed
  refine undivided (front ++ before) (after ++ back) ?_
    ((closed_blank_append blank before).mpr closed)
  rw [whole, inside]
  simp

theorem Runs.undivided {text : List Char} {runs : List (List Char)} (h : Runs text runs) :
    ∀ run ∈ runs, Undivided run := by
  induction h with
  | last undivided => exact List.forall_mem_singleton.mpr undivided
  | more undivided _ _ ih => exact List.forall_mem_cons.mpr ⟨undivided, ih⟩

theorem Runs.undivided_filled {text : List Char} {runs : List (List Char)} (h : Runs text runs) :
    ∀ segment ∈ filledRuns runs, Undivided segment := by
  intro segment inside
  obtain ⟨run, among, rfl⟩ := List.mem_map.mp (List.mem_of_mem_filter inside)
  exact (h.undivided run among).trim

theorem not_undivided_trim_concat {run : List Char} (closed : Closed run) :
    ¬Undivided (trim (run ++ [','])) := by
  obtain ⟨front, blank, whole⟩ := exists_trimStart run
  rw [trim_concat (by decide)]
  intro undivided
  rw [whole, closed_blank_append blank] at closed
  exact undivided (trimStart run) [] rfl closed

/-- **A list without braces is divided at every comma but one at its very end.** If a text without
braces closes its string literals, it is a list. The items are its runs between the commas outside
of string literals, trimmed and without the blank ones, exactly if it does not end with a comma, and
then and only then no such comma is left in an item. A comma at the end belongs to the last run
before it. -/
theorem splitList_unbraced_iff {text : String} (unbraced : Unbraced text.toList)
    (closed : Closed text.toList) :
    ∃ runs segments, Runs text.toList runs ∧ (∀ other, Runs text.toList other → other = runs) ∧
      splitList text = .ok (segments.map String.ofList) ∧
      (segments = filledRuns runs ↔ text.toList.getLast? ≠ some ',') ∧
      ((∀ segment ∈ segments, Undivided segment) ↔ text.toList.getLast? ≠ some ',') ∧
      (text.toList.getLast? = some ',' → ∃ before last, runs = before ++ [last, []] ∧
        segments = filledRuns (before ++ [last ++ [',']])) := by
  obtain ⟨runs, divided⟩ := exists_runs text.toList
  have balanced : (Scanner.run {} text.toList).isBalanced = true :=
    Scanner.isBalanced_iff.mpr ⟨depth_unbraced unbraced {}, closed_iff.mp closed⟩
  have outside : (text.toList.head? == some '\x7b') = false := by
    rw [beq_eq_false_iff_ne]
    intro first
    exact (unbraced '\x7b' (List.mem_of_mem_head? first)).1 rfl
  have split := splitList_eq_ok_iff.mpr ⟨_, by rw [segments?_eq, if_pos balanced, outside], rfl⟩
  refine ⟨runs, _, divided, fun other h => divided.unique h, split, ?_⟩
  obtain ⟨other, read⟩ | ⟨before, last, comma, rfl, ended, read⟩ :=
    segmentsFrom_runs divided unbraced closed
  · rw [read]
    exact ⟨by simp [other], by simpa [other] using divided.undivided_filled,
      fun comma => absurd comma other⟩
  · have kept : trim (last ++ [',']) ∈ filledRuns (before ++ [last ++ [',']]) := by
      refine List.mem_filter.mpr ⟨List.mem_map_of_mem (by simp), ?_⟩
      simp [trim_concat (show isBlank ',' = false by decide)]
    have divides : ¬∀ segment ∈ filledRuns (before ++ [last ++ [',']]), Undivided segment :=
      fun all => not_undivided_trim_concat ended (all _ kept)
    rw [read]
    refine ⟨?_, by simp [comma, divides], fun _ => ⟨before, last, rfl, rfl⟩⟩
    simp only [comma, ne_eq, not_true, iff_false]
    intro same
    exact divides (same ▸ divided.undivided_filled)

/-- Neither the comma in the string literal divides, nor the one at the end. -/
theorem splitList_unbraced_comma :
    Runs "\"a,b\" , c,".toList ["\"a,b\" ".toList, " c".toList, []] ∧
      splitList "\"a,b\" , c," = .ok ["\"a,b\"", "c,"] := by
  have whole : "\"a,b\" , c,".toList = "\"a,b\" ".toList ++ ',' :: (" c".toList ++ [',']) := rfl
  have literal : Undivided "\"a,b\" ".toList := by decide
  have plain : Undivided " c".toList := by decide
  have runs : Runs "\"a,b\" , c,".toList ["\"a,b\" ".toList, " c".toList, []] := by
    rw [whole]
    exact .more literal (by decide) (.more plain (by decide) (.last undivided_nil))
  have unbraced : Unbraced "\"a,b\" , c,".toList := by decide
  obtain ⟨_, segments, -, unique, split, -, -, last⟩ :=
    splitList_unbraced_iff unbraced (by decide)
  obtain ⟨before, run, same, rfl⟩ := last (by decide)
  rw [← unique _ runs] at same
  obtain ⟨rfl, same⟩ := List.append_inj' (show ["\"a,b\" ".toList] ++ _ = _ from same) rfl
  cases same
  exact ⟨runs, split⟩

end ScriptBridge.Group
