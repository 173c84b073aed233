import ScriptBridge.Bridge.Session
/-!
What an operation of a bridge leaves in its journal.

A journal only grows. `Bridge.Continues before history after` says that the one bridge became the
other while the entries of `history` were added, and that nothing else changed but the executor.
Running a script adds one entry about the script, and remarks around it (`continues_run`); flushing
a session does the same with what is pending in it (`continues_flush`).
-/
namespace ScriptBridge

/-! ## Histories -/

/-- The fragment that an entry tells of. -/
def Entry.fragment? : Entry → Option Fragment
  | built fragment => some fragment
  | _ => none

/-- The script that an entry tells of. -/
def Entry.script? : Entry → Option String
  | ran script _ _ => some script
  | _ => none

/-- The result of the script that an entry tells of. -/
def Entry.result? : Entry → Option (Except ExecutionError String)
  | ran _ _ result => some result
  | _ => none

namespace History

/-- The fragments that were built, in order. -/
def fragments (history : List Entry) : List Fragment := history.filterMap Entry.fragment?

/-- The scripts that were given to the executor, in order. -/
def scripts (history : List Entry) : List String := history.filterMap Entry.script?

/-- The results of these scripts, in order. -/
def results (history : List Entry) : List (Except ExecutionError String) :=
  history.filterMap Entry.result?

/-- No fragment was built and no script was run. -/
def Quiet (history : List Entry) : Prop :=
  ∀ entry ∈ history, entry.fragment? = none ∧ entry.script? = none

theorem Quiet.nil : Quiet [] := fun _ h => absurd h List.not_mem_nil

theorem Quiet.append {one two : List Entry} (h₁ : Quiet one) (h₂ : Quiet two) :
    Quiet (one ++ two) := by
  intro entry h
  rcases List.mem_append.mp h with h | h
  · exact h₁ entry h
  · exact h₂ entry h

theorem Quiet.logged (level : Level) (message : String) : Quiet [.logged level message] := by
  intro entry h
  rw [List.mem_singleton.mp h]
  exact ⟨rfl, rfl⟩

theorem Quiet.told (listeners : List String) (event : Event) :
    Quiet (listeners.map (.told · event)) := by
  intro entry h
  obtain ⟨listener, _, rfl⟩ := List.mem_map.mp h
  exact ⟨rfl, rfl⟩

theorem Quiet.fragments_eq {history : List Entry} (h : Quiet history) : fragments history = [] :=
  List.filterMap_eq_nil_iff.mpr fun entry he => (h entry he).1

theorem Quiet.scripts_eq {history : List Entry} (h : Quiet history) : scripts history = [] :=
  List.filterMap_eq_nil_iff.mpr fun entry he => (h entry he).2

@[simp] theorem fragments_append (one two : List Entry) :
    fragments (one ++ two) = fragments one ++ fragments two :=
  List.filterMap_append

@[simp] theorem scripts_append (one two : List Entry) :
    scripts (one ++ two) = scripts one ++ scripts two :=
  List.filterMap_append

/-- One script, and remarks before and after. -/
def IsRun (script : String) (history : List Entry) : Prop :=
  ∃ before after compiled result, Quiet before ∧ Quiet after ∧
    history = before ++ .ran script compiled result :: after

theorem IsRun.scripts_eq {script : String} {history : List Entry} (h : IsRun script history) :
    scripts history = [script] := by
  obtain ⟨before, after, compiled, result, hb, ha, rfl⟩ := h
  rw [scripts_append, hb.scripts_eq, show scripts (.ran script compiled result :: after) =
    script :: scripts after from rfl, ha.scripts_eq]
  rfl

theorem IsRun.fragments_eq {script : String} {history : List Entry} (h : IsRun script history) :
    fragments history = [] := by
  obtain ⟨before, after, compiled, result, hb, ha, rfl⟩ := h
  rw [fragments_append, hb.fragments_eq, show fragments (.ran script compiled result :: after) =
    fragments after from rfl, ha.fragments_eq]
  rfl

theorem IsRun.of_built {script : String} {history : List Entry} (h : IsRun script history)
    (fragment : Fragment) :
    fragments ([.built fragment] ++ history) = [fragment] ∧
      scripts ([.built fragment] ++ history) = [script] := by
  rw [fragments_append, scripts_append, h.fragments_eq, h.scripts_eq]
  exact ⟨rfl, rfl⟩

/-- One script that ended in a result, and remarks before and after. -/
def Ran (script : String) (result : Except ExecutionError String) (history : List Entry) : Prop :=
  ∃ before after compiled, Quiet before ∧ Quiet after ∧
    history = before ++ .ran script compiled result :: after

/-- Whatever was run, the answer was one text. -/
def Answered (answer : String) (history : List Entry) : Prop :=
  ∀ result ∈ results history, result = .ok answer

theorem Answered.of_append {answer : String} {one two : List Entry}
    (h : Answered answer (one ++ two)) : Answered answer one ∧ Answered answer two := by
  rwa [Answered, results, List.filterMap_append, List.forall_mem_append] at h

namespace Ran

variable {script : String} {result : Except ExecutionError String} {history : List Entry}

theorem isRun (h : Ran script result history) : IsRun script history := by
  obtain ⟨before, after, compiled, hb, ha, rfl⟩ := h
  exact ⟨before, after, compiled, result, hb, ha, rfl⟩

theorem after_quiet {one : List Entry} (h₁ : Quiet one) (h₂ : Ran script result history) :
    Ran script result (one ++ history) := by
  obtain ⟨before, after, compiled, hb, ha, rfl⟩ := h₂
  exact ⟨one ++ before, after, compiled, h₁.append hb, ha, (List.append_assoc ..).symm⟩

theorem eq_ok (h : Ran script result history) {answer : String}
    (answered : Answered answer history) : result = .ok answer := by
  obtain ⟨before, after, compiled, -, -, rfl⟩ := h
  exact answered result (List.mem_filterMap.mpr
    ⟨.ran script compiled result, List.mem_append_right _ List.mem_cons_self, rfl⟩)

end Ran
end History

namespace Bridge

open History

/-- What happened to a bridge since it was an earlier one. -/
def since (earlier b : Bridge) : List Entry := b.journal.drop earlier.journal.length

/-- A bridge that came out of another one by adding entries to the journal; scripts may have been
run. -/
structure Continues (before : Bridge) (history : List Entry) (after : Bridge) : Prop where
  journal : after.journal = before.journal ++ history
  config : after.config = before.config
  codecs : after.codecs = before.codecs
  aspects : after.aspects = before.aspects
  classes : after.classes = before.classes
  applications : after.applications = before.applications
  listeners : after.listeners = before.listeners

namespace Continues

theorem refl (b : Bridge) : Continues b [] b :=
  ⟨(List.append_nil _).symm, rfl, rfl, rfl, rfl, rfl, rfl⟩

theorem trans {a b c : Bridge} {one two : List Entry} (h₁ : Continues a one b)
    (h₂ : Continues b two c) : Continues a (one ++ two) c where
  journal := by rw [h₂.journal, h₁.journal, List.append_assoc]
  config := h₂.config.trans h₁.config
  codecs := h₂.codecs.trans h₁.codecs
  aspects := h₂.aspects.trans h₁.aspects
  classes := h₂.classes.trans h₁.classes
  applications := h₂.applications.trans h₁.applications
  listeners := h₂.listeners.trans h₁.listeners

theorem since_eq {before after : Bridge} {history : List Entry}
    (h : Continues before history after) : before.since after = history := by
  rw [since, h.journal, List.drop_left]

theorem decode_eq {before after : Bridge} {history : List Entry}
    (h : Continues before history after) : after.decode = before.decode := by
  funext target reference
  rw [decode, decode, codecList, codecList, h.codecs, h.applications]

theorem internTypeClass_eq {before after : Bridge} {history : List Entry}
    (h : Continues before history after) : after.internTypeClass = before.internTypeClass := by
  funext c
  simp only [internTypeClass, findInterned, h.classes, h.applications]

theorem aspectList_eq {before after : Bridge} {history : List Entry}
    (h : Continues before history after) : after.aspectList = before.aspectList := by
  rw [aspectList, aspectList, h.aspects]

end Continues

section
variable (b : Bridge)

theorem continues_note (entry : Entry) : Continues b [entry] (b.note entry) :=
  ⟨rfl, rfl, rfl, rfl, rfl, rfl, rfl⟩

theorem continues_log (level : Level) (message : String) :
    Continues b [.logged level message] (b.log level message) :=
  b.continues_note _

theorem continues_tell (event : Event) :
    Continues b (b.listeners.map (.told · event)) (b.tell event) :=
  ⟨rfl, rfl, rfl, rfl, rfl, rfl, rfl⟩

theorem continues_submit (script : String) (compile : Bool) :
    Continues b [.ran script compile (b.executor.run script compile).1]
      (b.submit script compile).2 :=
  ⟨rfl, rfl, rfl, rfl, rfl, rfl, rfl⟩

theorem continues_conclude (script : String) (result : Except ExecutionError String) :
    ∃ history, Quiet history ∧ Continues b history (b.conclude script result) := by
  cases result with
  | ok text =>
    exact ⟨_, (Quiet.logged _ _).append (Quiet.told _ _),
      (b.continues_log _ _).trans (continues_tell _ _)⟩
  | error e =>
    exact ⟨_, (Quiet.logged _ _).append (Quiet.told _ _),
      (b.continues_log _ _).trans (continues_tell _ _)⟩

theorem run_fst (script : String) (compile : Bool) :
    (b.run script compile).1 = (b.executor.run script compile).1 := rfl

theorem ran_run (script : String) (compile : Bool) :
    ∃ history, Ran script (b.run script compile).1 history ∧
      Continues b history (b.run script compile).2 := by
  have told := b.continues_tell (.start script)
  have logged := (b.tell (.start script)).continues_log .debug ("Executing script:\n" ++ script)
  have submitted := ((b.tell (.start script)).log .debug
    ("Executing script:\n" ++ script)).continues_submit script compile
  obtain ⟨rest, quiet, concluded⟩ := continues_conclude (((b.tell (.start script)).log .debug
    ("Executing script:\n" ++ script)).submit script compile).2 script
    (b.executor.run script compile).1
  -- Of the four steps only the third one is about the script, the others are remarks.
  refine ⟨_, ?_, ((told.trans logged).trans submitted).trans concluded⟩
  exact ⟨_, rest, compile, (Quiet.told _ _).append (Quiet.logged _ _), quiet,
    List.append_assoc ..⟩

theorem continues_run (script : String) (compile : Bool) :
    ∃ history, IsRun script history ∧ Continues b history (b.run script compile).2 := by
  obtain ⟨history, ran, continued⟩ := b.ran_run script compile
  exact ⟨history, ran.isRun, continued⟩

theorem ran_flush (s : Session) :
    ∃ history result, Ran s.script result history ∧
      (b.flushSession s).1 = result.mapError .execution ∧
      Continues b history (b.flushSession s).2.2 := by
  have logged := b.continues_log .debug ("Executing " ++ inBytes s.script ++ " of batched script")
  obtain ⟨history, ran, continued⟩ := (b.log .debug
    ("Executing " ++ inBytes s.script ++ " of batched script")).ran_run s.script s.compiles
  exact ⟨_, _, ran.after_quiet (Quiet.logged _ _), rfl, logged.trans continued⟩

theorem continues_flush (s : Session) :
    ∃ history, IsRun s.script history ∧ Continues b history (b.flushSession s).2.2 := by
  obtain ⟨history, _, ran, -, continued⟩ := b.ran_flush s
  exact ⟨history, ran.isRun, continued⟩

theorem continues_commit (s : Session) :
    ∃ history, Continues b history (b.commitSession s).2 ∧
      if s.script = "" then history = [] else IsRun s.script history := by
  by_cases h : s.script = ""
  · refine ⟨[], ?_, if_pos h ▸ rfl⟩
    rw [commitSession, if_pos (by rw [Session.isEmpty, h]; rfl)]
    exact Continues.refl b
  · obtain ⟨history, ran, continued⟩ := b.continues_flush s
    refine ⟨history, ?_, if_neg h ▸ ran⟩
    rw [commitSession, if_neg (by rwa [Session.isEmpty, String.isEmpty_iff])]
    exact continued

end

end Bridge
end ScriptBridge
