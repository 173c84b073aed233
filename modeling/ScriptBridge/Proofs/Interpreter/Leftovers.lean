import Mathlib.Data.List.Basic
import ScriptBridge.Interpreter.Cache
/-!
What a failed compilation leaves in the cache.

A script counts as compiled when its file exists, but whether a compilation failed is told by what
the compiler wrote to its error stream and by its status. So a compiler that writes the file and
fails leaves a file behind that the next attempt takes for a compiled script. That is the only way:
an attempt that fails leaves its source in no case, and its file, which the next attempt finds,
exactly if the compiler wrote it (`forgetsFailures_iff`).
-/
namespace ScriptBridge

/-- The compiler is started and writes the compiled script. -/
def Compilation.leavesFile (k : Compilation) : Bool := k.outcome.isSome && k.writes

namespace ScriptCache

/-- A script that is to be compiled, and what the compiler does if it is started for it. -/
structure Attempt where
  script : String
  compilation : Compilation

/-- The path that an attempt gives, or its error; the cache afterwards; the programs started. -/
def attempt (c : ScriptCache) (a : Attempt) :
    Except ExecutionError String × ScriptCache × List ProgramCall :=
  c.compiled a.compilation a.script

/-- The cache after attempts one after another. -/
def after (c : ScriptCache) (attempts : List Attempt) : ScriptCache :=
  attempts.foldl (fun c a => (c.attempt a).2.1) c

/-- An attempt gives an error. -/
def Fails (c : ScriptCache) (a : Attempt) : Prop := ∃ e, (c.attempt a).1 = .error e

/-- An attempt starts the compiler, and the compiler decides how the attempt ends. -/
structure Recompiles (c : ScriptCache) (a : Attempt) : Prop where
  result : (c.attempt a).1 =
    (Outcome.result c.compiler a.script a.compilation.outcome).map fun _ => c.pathFor a.script
  started : (c.attempt a).2.2 =
    if a.compilation.outcome.isSome then [c.compilerCall a.script] else []

/-- An attempt takes the file that is there for the compiled script, and starts nothing. -/
def Reuses (c : ScriptCache) (a : Attempt) : Prop :=
  c.attempt a = (.ok (c.pathFor a.script), c, [])

/-- The law of failures: what fails leaves no compiled script and no source, and the next attempt at
the same script compiles it again. -/
structure ForgetsFailures (c : ScriptCache) (attempts : List Attempt) : Prop where
  target : ∀ before a later, attempts = before ++ a :: later → (c.after before).Fails a →
    (c.after (before ++ [a])).contains (fileName a.script) = false
  source : ∀ before a later, attempts = before ++ a :: later → (c.after before).Fails a →
    (c.after (before ++ [a])).contains (sourceName a.script) = false
  again : ∀ before a between next later,
    attempts = before ++ a :: (between ++ next :: later) → (c.after before).Fails a →
    next.script = a.script → (∀ other ∈ between, other.script ≠ a.script) →
    (c.after (before ++ a :: between)).Recompiles next

/-! ## Names -/

theorem fileName_eq_iff {s t : String} : fileName s = fileName t ↔ key s = key t := by
  rw [fileName, fileName, String.append_left_inj]

theorem fileName_ne_sourceName (s t : String) : fileName s ≠ sourceName t := by
  intro same
  have ends := congrArg (fun name : String => name.toList.reverse.take 3) same
  simp [fileName, sourceName] at ends

theorem mem_insertName {name other : String} {names : List String} :
    other ∈ insertName name names ↔ other = name ∨ other ∈ names := by
  induction names with
  | nil => simp [insertName]
  | cons first names ih =>
    rw [insertName]
    split
    · simp
    · split
      · next same => simp [same]
      · simp only [List.mem_cons, ih]
        tauto

/-! ## Files -/

section
variable (c : ScriptCache) (name other : String)

theorem contains_touch : (c.touch name).contains other = (other == name || c.contains other) := by
  rw [Bool.eq_iff_iff]
  simp [contains, touch, names, mem_insertName]

theorem contains_remove : (c.remove name).contains other = (other != name && c.contains other) := by
  rw [Bool.eq_iff_iff]
  cases h : c.files <;> simp [contains, remove, names, h, and_comm]

end

/-! ## Attempts -/

/-- The cache after the compiler was run for a script. -/
def cleaned (c : ScriptCache) (a : Attempt) : ScriptCache :=
  let prepared := c.touch (sourceName a.script)
  let ran := if a.compilation.leavesFile then prepared.touch (fileName a.script) else prepared
  ran.remove (sourceName a.script)

section
variable {c : ScriptCache} {a : Attempt}

theorem reuses_of_found (found : c.contains (fileName a.script) = true) : c.Reuses a := by
  rw [Reuses, attempt, compiled, if_pos found]

theorem attempt_missing (missing : c.contains (fileName a.script) = false) :
    c.attempt a =
      ((Outcome.result c.compiler a.script a.compilation.outcome).map fun _ => c.pathFor a.script,
        c.cleaned a,
        if a.compilation.outcome.isSome then [c.compilerCall a.script] else []) := by
  rw [attempt, compiled, if_neg (by rw [missing]; exact Bool.false_ne_true)]
  dsimp only
  cases Outcome.result c.compiler a.script a.compilation.outcome <;> rfl

theorem Recompiles.of_missing (missing : c.contains (fileName a.script) = false) :
    c.Recompiles a := by
  constructor <;> rw [attempt_missing missing]

theorem Fails.missing (failed : c.Fails a) : c.contains (fileName a.script) = false := by
  obtain ⟨e, failed⟩ := failed
  rw [Bool.eq_false_iff]
  intro found
  rw [reuses_of_found found] at failed
  cases failed

theorem Fails.compiler_failed (failed : c.Fails a) :
    ∃ e, Outcome.result c.compiler a.script a.compilation.outcome = .error e := by
  have missing := failed.missing
  obtain ⟨e, failed⟩ := failed
  rw [attempt_missing missing] at failed
  cases result : Outcome.result c.compiler a.script a.compilation.outcome with
  | error e => exact ⟨e, rfl⟩
  | ok text =>
    rw [result] at failed
    cases failed

/-- An attempt adds the file of its script if the compiler writes it, and no other file. -/
theorem contains_attempt (c : ScriptCache) (a : Attempt) (s : String) :
    (c.attempt a).2.1.contains (fileName s) =
      (c.contains (fileName s) || (fileName s == fileName a.script && a.compilation.leavesFile)) := by
  cases found : c.contains (fileName a.script) with
  | true =>
    rw [reuses_of_found found]
    by_cases same : fileName s = fileName a.script
    · rw [same, found, Bool.true_or]
    · rw [beq_false_of_ne same, Bool.false_and, Bool.or_false]
  | false =>
    have apart := fileName_ne_sourceName s a.script
    rw [attempt_missing found]
    dsimp only [cleaned]
    rw [contains_remove, bne_iff_ne.mpr apart, Bool.true_and]
    split
    · next leaves =>
      rw [contains_touch, contains_touch, beq_false_of_ne apart, leaves]
      simp [Bool.or_comm]
    · next leaves =>
      rw [contains_touch, beq_false_of_ne apart, Bool.eq_false_iff.mpr leaves]
      simp

theorem Fails.source_gone (failed : c.Fails a) :
    (c.attempt a).2.1.contains (sourceName a.script) = false := by
  rw [attempt_missing failed.missing]
  dsimp only [cleaned]
  rw [contains_remove, bne_self_eq_false, Bool.false_and]

/-- What fails leaves its file exactly if the compiler wrote it. -/
theorem Fails.contains_eq (failed : c.Fails a) :
    (c.attempt a).2.1.contains (fileName a.script) = a.compilation.leavesFile := by
  rw [contains_attempt, failed.missing, beq_self_eq_true, Bool.false_or, Bool.true_and]

end

/-! ## Runs -/

theorem after_append (c : ScriptCache) (one two : List Attempt) :
    c.after (one ++ two) = (c.after one).after two := List.foldl_append

theorem after_cons (c : ScriptCache) (a : Attempt) (attempts : List Attempt) :
    c.after (a :: attempts) = ((c.attempt a).2.1).after attempts := rfl

theorem contains_after {attempts : List Attempt} {s : String}
    (others : ∀ a ∈ attempts, key a.script ≠ key s) (c : ScriptCache) :
    (c.after attempts).contains (fileName s) = c.contains (fileName s) := by
  induction attempts generalizing c with
  | nil => rfl
  | cons a attempts ih =>
    rw [List.forall_mem_cons] at others
    have apart : fileName s ≠ fileName a.script := fun same => others.1 (fileName_eq_iff.mp same).symm
    rw [after_cons, ih others.2, contains_attempt, beq_false_of_ne apart, Bool.false_and,
      Bool.or_false]

theorem after_concat (c : ScriptCache) (attempts : List Attempt) (a : Attempt) :
    c.after (attempts ++ [a]) = ((c.after attempts).attempt a).2.1 := after_append c attempts [a]

section
variable {attempts : List Attempt} (noCollision : ∀ a ∈ attempts, ∀ b ∈ attempts,
  key a.script = key b.script → a.script = b.script) (c : ScriptCache)
include noCollision

/-- When a script comes up again, its file is there exactly if a compilation that failed wrote it. -/
theorem contains_next {before between rest : List Attempt} {a next : Attempt}
    (run : attempts = before ++ a :: (between ++ next :: rest)) (failed : (c.after before).Fails a)
    (again : next.script = a.script) (others : ∀ other ∈ between, other.script ≠ a.script) :
    (c.after (before ++ a :: between)).contains (fileName next.script) = a.compilation.leavesFile := by
  have apart : ∀ other ∈ between, key other.script ≠ key a.script := by
    intro other inside collision
    refine others other inside (noCollision other ?_ a ?_ collision)
    · rw [run]
      simp [inside]
    · rw [run]
      simp
  rw [after_append, after_cons, again, contains_after apart, failed.contains_eq]

/-- The failures of a run of attempts leave something behind exactly if the compiler writes the file
of one of them. Its source is gone in any case; and a file that it wrote is taken for the compiled
script by the next attempt at the same script, which starts nothing. -/
theorem forgetsFailures_iff :
    (c.ForgetsFailures attempts ↔
      ∀ before a later, attempts = before ++ a :: later → (c.after before).Fails a →
        a.compilation.leavesFile = false) ∧
    ∀ before a later, attempts = before ++ a :: later → (c.after before).Fails a →
      (c.after (before ++ [a])).contains (sourceName a.script) = false ∧
      ∀ between next rest, later = between ++ next :: rest → next.script = a.script →
        (∀ other ∈ between, other.script ≠ a.script) →
        (a.compilation.leavesFile = true → (c.after (before ++ a :: between)).Reuses next) ∧
        (a.compilation.leavesFile = false → (c.after (before ++ a :: between)).Recompiles next) := by
  refine ⟨⟨fun law before a later run failed => ?_, fun unwritten => ⟨?_, ?_, ?_⟩⟩, ?_⟩
  · rw [← failed.contains_eq, ← after_concat]
    exact law.target before a later run failed
  · intro before a later run failed
    rw [after_concat, failed.contains_eq]
    exact unwritten before a later run failed
  · intro before a later _ failed
    rw [after_concat]
    exact failed.source_gone
  · intro before a between next later run failed again others
    refine .of_missing ?_
    rw [contains_next noCollision c run failed again others]
    exact unwritten before a _ run failed
  · rintro before a later run failed
    refine ⟨?_, ?_⟩
    · rw [after_concat]
      exact failed.source_gone
    · rintro between next rest rfl again others
      have there := contains_next noCollision c run failed again others
      exact ⟨fun written => reuses_of_found (there.trans written),
        fun unwritten => .of_missing (there.trans unwritten)⟩

end

namespace Complaint

def cache : ScriptCache := { directory := "/cache", compiler := "compiler" }

/-- An attempt for which the compiler complains, whether it writes the file or not. -/
def complains (writes : Bool) : Attempt :=
  { script := "return 1", compilation := { outcome := some { errors := [110, 111] }, writes } }

/-- An attempt for which the compiler does what it should. -/
def succeeds (script : String) : Attempt :=
  { script, compilation := { outcome := some {}, writes := true } }

/-- A script is tried again when another one has been compiled. -/
def attempts (writes : Bool) : List Attempt :=
  [complains writes, succeeds "return 2", succeeds "return 1"]

theorem fails (c : ScriptCache) (missing : c.contains (fileName "return 1") = false)
    (writes : Bool) : c.Fails (complains writes) := by
  have result : Outcome.result c.compiler (complains writes).script
      (complains writes).compilation.outcome = .error (Diagnostic.classify "no" "return 1") := rfl
  refine ⟨Diagnostic.classify "no" "return 1", ?_⟩
  rw [attempt_missing (a := complains writes) missing, result, Except.map]

theorem not_fails (c : ScriptCache) (script : String) : ¬c.Fails (succeeds script) := by
  intro failed
  obtain ⟨e, failed⟩ := failed.compiler_failed
  have result : Outcome.result c.compiler script (succeeds script).compilation.outcome = .ok "" :=
    rfl
  cases result.symm.trans failed

/-- A file that was written in spite of a complaint is reused; where nothing was written the law is
kept. -/
theorem file_reused :
    (∀ writes, ∀ a ∈ attempts writes, ∀ b ∈ attempts writes, key a.script = key b.script →
        a.script = b.script) ∧
      (cache.after [complains true, succeeds "return 2"]).Reuses (succeeds "return 1") ∧
      ¬cache.ForgetsFailures (attempts true) ∧ cache.ForgetsFailures (attempts false) := by
  have apart : key "return 1" ≠ key "return 2" := by decide +kernel
  have noCollision (writes : Bool) : ∀ a ∈ attempts writes, ∀ b ∈ attempts writes,
      key a.script = key b.script → a.script = b.script := by
    simp [attempts, complains, succeeds, apart, apart.symm]
  have failed := fails cache rfl true
  obtain ⟨broken, found⟩ := forgetsFailures_iff (noCollision true) cache
  obtain ⟨kept, -⟩ := forgetsFailures_iff (noCollision false) cache
  refine ⟨noCollision, ?_, fun law => ?_, kept.mpr fun before a later run fault => ?_⟩
  · exact ((found [] _ _ rfl failed).2 [succeeds "return 2"] (succeeds "return 1") [] rfl rfl
      (by simp [succeeds, complains])).1 rfl
  · cases broken.mp law [] _ _ rfl failed
  · have inside : a ∈ attempts false := run ▸ List.mem_append_right _ List.mem_cons_self
    simp only [attempts, List.mem_cons, List.not_mem_nil, or_false] at inside
    rcases inside with rfl | rfl | rfl
    · rfl
    · exact absurd fault (not_fails _ _)
    · exact absurd fault (not_fails _ _)

end Complaint

end ScriptCache
end ScriptBridge
