import ScriptBridge.Proofs.Bridge.Batch
/-!
What listeners are told of executions.

Scripts leave a bridge on several ways: at once, for a call that is made by itself or in a session,
or when a session is flushed or committed. On each of them all listeners are told that the execution
begins and then, whether it succeeded or not, that it has ended, and they are told nothing else
(`Announced`). Since every call keeps to that (`steady_announced`), so does every run, in which
listeners may be added at any point (`executions_announced`). That the executions in the journal are
all that the executor did is part of it, so no script goes past the listeners.
-/
namespace ScriptBridge

/-! ## Executions and notices -/

/-- A script that was given to the executor, with its result. -/
structure Execution where
  script : String
  compiled : Bool
  result : Except ExecutionError String

/-- What a listener is told of an execution: that it begins, and that it has ended, with the result
if there is one. -/
def Execution.notices (x : Execution) : List Event :=
  [.start x.script, .finish x.script x.result.toOption]

/-- What several listeners are told of an execution. -/
def Execution.announcements (listeners : List String) (x : Execution) : List (String × Event) :=
  x.notices.flatMap fun event => listeners.map (·, event)

/-- The execution that an entry tells of. -/
def Entry.execution? : Entry → Option Execution
  | ran script compiled result => some { script, compiled, result }
  | _ => none

/-- The notice that an entry tells of, and to whom it went. -/
def Entry.notice? : Entry → Option (String × Event)
  | told listener event => some (listener, event)
  | _ => none

namespace History

/-- The executions of a history, in order. -/
def executions (history : List Entry) : List Execution := history.filterMap Entry.execution?

/-- The notices of a history, in order. -/
def notices (history : List Entry) : List (String × Event) := history.filterMap Entry.notice?

/-- What is told to one listener. -/
def noticeTo? (listener : String) (notice : String × Event) : Option Event :=
  if notice.1 = listener then some notice.2 else none

/-- What one listener was told, in order. -/
def heard (listener : String) (history : List Entry) : List Event :=
  (notices history).filterMap (noticeTo? listener)

@[simp] theorem executions_append (one two : List Entry) :
    executions (one ++ two) = executions one ++ executions two := List.filterMap_append

@[simp] theorem notices_append (one two : List Entry) :
    notices (one ++ two) = notices one ++ notices two := List.filterMap_append

theorem executions_told (listeners : List String) (event : Event) :
    executions (listeners.map (.told · event)) = [] := by
  rw [executions, List.filterMap_map]
  exact List.filterMap_eq_nil_iff.mpr fun _ _ => rfl

theorem notices_told (listeners : List String) (event : Event) :
    notices (listeners.map (.told · event)) = listeners.map (·, event) := by
  rw [notices, List.filterMap_map, ← List.filterMap_eq_map]
  rfl

theorem heard_append (listener : String) (one two : List Entry) :
    heard listener (one ++ two) = heard listener one ++ heard listener two := by
  rw [heard, notices_append, List.filterMap_append]
  rfl

theorem filterMap_noticeTo? (listener : String) (listeners : List String) (event : Event) :
    (listeners.map (·, event)).filterMap (noticeTo? listener) =
      List.replicate (listeners.count listener) event := by
  induction listeners with
  | nil => rfl
  | cons other listeners ih =>
    rw [List.map_cons, List.filterMap_cons, List.count_cons, ih, noticeTo?]
    by_cases same : other = listener
    · simp [same, List.replicate_succ]
    · simp [same]

end History

/-- An executor that is given scripts one after another, with the results that it gives. -/
inductive Executor.Gives : Executor → List Execution → Executor → Prop
  | nil (e : Executor) : Gives e [] e
  | cons {one two three : Executor} {x : Execution} {more : List Execution}
      (first : one.run x.script x.compiled = (x.result, two)) (rest : Gives two more three) :
      Gives one (x :: more) three

theorem Executor.Gives.trans {one two three : Executor} {before after : List Execution}
    (h₁ : Gives one before two) (h₂ : Gives two after three) : Gives one (before ++ after) three := by
  induction h₁ with
  | nil => exact h₂
  | cons first _ ih => exact .cons first (ih h₂)

/-! ## Operations of a bridge -/

open History

/-- A bridge that came out of another one while those who listened to that one were told of all
executions and of nothing else. -/
structure Told (before : Bridge) (history : List Entry) (after : Bridge) : Prop where
  journal : after.journal = before.journal ++ history
  executed : before.executor.Gives (executions history) after.executor
  notices : notices history = (executions history).flatMap (Execution.announcements before.listeners)

theorem Told.since_eq {before after : Bridge} {history : List Entry}
    (h : Told before history after) : before.since after = history := by
  rw [Bridge.since, h.journal, List.drop_left]

/-- The same, while nobody began to listen. -/
structure Announced (before : Bridge) (history : List Entry) (after : Bridge) : Prop
    extends Told before history after where
  listeners : after.listeners = before.listeners

namespace Announced

theorem refl (b : Bridge) : Announced b [] b :=
  ⟨⟨(List.append_nil _).symm, .nil _, rfl⟩, rfl⟩

theorem trans {one two three : Bridge} {before after : List Entry} (h₁ : Announced one before two)
    (h₂ : Announced two after three) : Announced one (before ++ after) three where
  journal := by rw [h₂.journal, h₁.journal, List.append_assoc]
  listeners := h₂.listeners.trans h₁.listeners
  executed := by
    rw [executions_append]
    exact h₁.executed.trans h₂.executed
  notices := by
    rw [notices_append, executions_append, List.flatMap_append, h₁.notices, h₂.notices,
      h₁.listeners]

variable (b : Bridge)

theorem note (fragment : Fragment) : Announced b [.built fragment] (b.note (.built fragment)) :=
  ⟨⟨rfl, .nil _, rfl⟩, rfl⟩

theorem log (level : Level) (message : String) :
    Announced b [.logged level message] (b.log level message) :=
  ⟨⟨rfl, .nil _, rfl⟩, rfl⟩

/-- Concluding a script logs something and tells the listeners that it has ended. -/
theorem conclude_eq (script : String) (result : Except ExecutionError String) :
    ∃ message, b.conclude script result =
      (b.log .debug message).tell (.finish script result.toOption) := by
  cases result <;> exact ⟨_, rfl⟩

/-- Running a script is one execution, which is announced before and after it. -/
theorem run (script : String) (compile : Bool) :
    ∃ history, Announced b history (b.run script compile).2 := by
  let x : Execution := { script, compiled := compile, result := (b.executor.run script compile).1 }
  let opened := (b.tell (.start script)).log .debug ("Executing script:\n" ++ script)
  obtain ⟨message, concluded⟩ := conclude_eq (opened.submit script compile).2 script x.result
  have last : (b.run script compile).2 = (((opened.submit script compile).2.log .debug message).tell
      (.finish script x.result.toOption)) := concluded
  -- What is told is told to the listeners of `b`, since no step of a run changes them.
  let history : List Entry := b.listeners.map (.told · (.start script)) ++
    [.logged .debug ("Executing script:\n" ++ script), .ran script compile x.result,
      .logged .debug message] ++ b.listeners.map (.told · (.finish script x.result.toOption))
  have executed : executions history = [x] := by
    simp only [history, executions_append, executions_told]
    rfl
  refine ⟨history, ⟨?_, ?_, ?_⟩, ?_⟩
  · rw [last]
    simp [history, opened, x, Bridge.tell, Bridge.log, Bridge.note, Bridge.submit]
  · rw [executed, last]
    exact .cons rfl (.nil _)
  · rw [executed]
    simp only [history, notices_append, notices_told]
    simp [History.notices, Entry.notice?, x, Execution.announcements, Execution.notices]
  · rw [last]
    rfl

theorem flush (s : Session) : ∃ history, Announced b history (b.flushSession s).2.2 := by
  obtain ⟨history, ran⟩ := run (b.log .debug
    ("Executing " ++ Bridge.inBytes s.script ++ " of batched script")) s.script s.compiles
  exact ⟨_, (log b _ _).trans ran⟩

theorem commit (s : Session) : ∃ history, Announced b history (b.commitSession s).2 := by
  unfold Bridge.commitSession
  split
  · exact ⟨[], refl b⟩
  · exact flush b s

theorem register (d : Dictionary) (name : String) :
    ∃ history, Announced b history (b.register d name).2 := by
  unfold Bridge.register
  dsimp only
  split
  · exact ⟨[], refl b⟩
  · dsimp only
    split
    · exact ⟨_, ⟨rfl, .nil _, rfl⟩, rfl⟩
    · exact ⟨[], ⟨(List.append_nil _).symm, .nil _, rfl⟩, rfl⟩

end Announced

/-- Every call announces the executions that it leads to, wherever it ends. -/
theorem steady_announced : Call.Steady (fun _ => True) fun before after =>
    ∃ history, Announced before.bridge history after.bridge where
  refl scene := ⟨[], .refl _⟩
  trans := by
    rintro one two three ⟨before, first⟩ ⟨after, second⟩
    exact ⟨before ++ after, first.trans second⟩
  log scene level message := ⟨_, .log _ level message⟩
  remember scene c := ⟨[], .refl _⟩
  execute := by
    intro text returns _ scene
    have noted := Announced.note scene.bridge (scene.fragment text)
    cases h : scene.session with
    | none =>
      obtain ⟨history, ran⟩ := Announced.run (scene.noted text) (scene.fragment text).wrapped false
      rw [Call.run_execute_alone h]
      exact ⟨_, noted.trans ran⟩
    | some session =>
      rw [Call.run_execute_batched h]
      dsimp only
      split
      · exact ⟨_, noted⟩
      · obtain ⟨history, ran⟩ := Announced.flush (scene.noted text)
          (session.add (scene.fragment text).wrapped)
        exact ⟨_, noted.trans ran⟩

/-! ## Runs -/

/-- What may happen on a bridge. A session and a handler come with whatever they hold at that
moment, so nothing is assumed about how they got there. -/
inductive Act where
  | listen (listener : String)
  | register (d : Dictionary) (name : String)
  /-- A script is run as it is. -/
  | execute (script : String)
  /-- A handler makes a call, by itself or in a session. -/
  | call (session : Option Session) (handler : Handler) (request : Request)
  | flush (session : Session)
  | commit (session : Session)

namespace Bridge

def act (b : Bridge) : Act → Bridge
  | .listen listener => b.listen listener
  | .register d name => (b.register d name).2
  | .execute script => (b.execute script).2
  | .call session handler request => (request.call.run { bridge := b, session, handler }).2.bridge
  | .flush session => (b.flushSession session).2.2
  | .commit session => (b.commitSession session).2

/-- The bridge after acts one after another. -/
def after (b : Bridge) (acts : List Act) : Bridge := acts.foldl act b

/-- The executions of a run, each one with those who listen at that moment. -/
def audiences (b : Bridge) : List Act → List (List String × Execution)
  | [] => []
  | a :: acts =>
    (executions (b.since (b.act a))).map (b.listeners, ·) ++ (b.act a).audiences acts

theorem act_announced (b : Bridge) {a : Act} (h : ∀ listener, a ≠ .listen listener) :
    ∃ history, Announced b history (b.act a) := by
  cases a with
  | listen listener => exact absurd rfl (h listener)
  | register d name => exact Announced.register b d name
  | execute script => exact Announced.run b script false
  | call session handler request => exact request.keeps steady_announced ⟨b, session, handler⟩
  | flush session => exact Announced.flush b session
  | commit session => exact Announced.commit b session

theorem act_told (b : Bridge) (a : Act) : ∃ history, Told b history (b.act a) := by
  by_cases h : ∃ listener, a = .listen listener
  · obtain ⟨listener, rfl⟩ := h
    exact ⟨[], (List.append_nil _).symm, .nil _, rfl⟩
  · obtain ⟨history, announced⟩ := b.act_announced fun listener same => h ⟨listener, same⟩
    exact ⟨history, announced.toTold⟩

theorem count_listeners_act (b : Bridge) {listener : String} {a : Act} (h : a ≠ .listen listener) :
    (b.act a).listeners.count listener = b.listeners.count listener := by
  by_cases adds : ∃ other, a = .listen other
  · obtain ⟨other, rfl⟩ := adds
    have different : other ≠ listener := fun same => h (congrArg Act.listen same)
    rw [act, listen, List.count_append, List.count_singleton, if_neg (by simpa using different),
      Nat.add_zero]
  · obtain ⟨history, announced⟩ := b.act_announced fun other same => adds ⟨other, same⟩
    rw [announced.listeners]

theorem count_listeners_after {listener : String} {acts : List Act} (once : .listen listener ∉ acts)
    (b : Bridge) : (b.after acts).listeners.count listener = b.listeners.count listener := by
  induction acts generalizing b with
  | nil => rfl
  | cons a acts ih =>
    rw [List.mem_cons, not_or] at once
    rw [after, List.foldl_cons, ← after, ih once.2, b.count_listeners_act (Ne.symm once.1)]

theorem count_of_mem_audiences {listener : String} {acts : List Act} (once : .listen listener ∉ acts)
    (b : Bridge) : ∀ p ∈ b.audiences acts, p.1.count listener = b.listeners.count listener := by
  induction acts generalizing b with
  | nil => exact fun _ h => absurd h List.not_mem_nil
  | cons a acts ih =>
    rw [List.mem_cons, not_or] at once
    intro p inside
    rcases List.mem_append.mp inside with now | later
    · obtain ⟨x, -, rfl⟩ := List.mem_map.mp now
      rfl
    · rw [ih once.2 _ p later, b.count_listeners_act (Ne.symm once.1)]

/-- A stretch of a run: all executions of it are announced to those who listen to them. -/
structure Stretch (before : Bridge) (acts : List Act) (history : List Entry) (after : Bridge) :
    Prop where
  journal : after.journal = before.journal ++ history
  executed : before.executor.Gives (executions history) after.executor
  audiences : (before.audiences acts).map Prod.snd = executions history
  notices : notices history = (before.audiences acts).flatMap fun p => p.2.announcements p.1

theorem Stretch.cons {b last : Bridge} {a : Act} {acts : List Act} {one more : List Entry}
    (first : Told b one (b.act a)) (rest : Stretch (b.act a) acts more last) :
    Stretch b (a :: acts) (one ++ more) last where
  journal := by rw [rest.journal, first.journal, List.append_assoc]
  executed := by
    rw [executions_append]
    exact first.executed.trans rest.executed
  audiences := by
    rw [Bridge.audiences, first.since_eq, List.map_append, rest.audiences, executions_append,
      List.map_map]
    exact congrArg (· ++ _) (List.map_id _)
  notices := by
    rw [notices_append, Bridge.audiences, first.since_eq, List.flatMap_append, ← rest.notices,
      first.notices, List.flatMap_map]

theorem after_stretch (b : Bridge) (acts : List Act) :
    ∃ history, Stretch b acts history (b.after acts) := by
  induction acts generalizing b with
  | nil => exact ⟨[], (List.append_nil _).symm, .nil _, rfl, rfl⟩
  | cons a acts ih =>
    obtain ⟨one, first⟩ := b.act_told a
    obtain ⟨more, rest⟩ := ih (b.act a)
    exact ⟨one ++ more, .cons first rest⟩

theorem Stretch.since_eq {b last : Bridge} {acts : List Act} {history : List Entry}
    (h : Stretch b acts history last) : b.since last = history := by
  rw [Bridge.since, h.journal, List.drop_left]

/-- Somebody who listens so many times is told of each execution as often. -/
theorem Stretch.heard_eq {b last : Bridge} {acts : List Act} {history : List Entry}
    (h : Stretch b acts history last) {listener : String} (once : .listen listener ∉ acts) :
    heard listener history = (executions history).flatMap fun x =>
      x.notices.flatMap (List.replicate (b.listeners.count listener)) := by
  rw [heard, h.notices, ← h.audiences, List.filterMap_flatMap, List.flatMap_map]
  refine List.flatMap_congr fun p inside => ?_
  rw [Execution.announcements, List.filterMap_flatMap]
  refine List.flatMap_congr fun event _ => ?_
  rw [filterMap_noticeTo?, count_of_mem_audiences once b p inside]

end Bridge

/-- **Listeners hear of every execution, and of nothing else.** In a run the executor is given the
scripts of the journal and no others, and of each one all who listen at that moment are told that it
begins, and then that it has ended. So one who begins to listen during the run, once, hears just
these two notices of every script that is executed from then on, in order. -/
theorem executions_announced (b : Bridge) (acts : List Act) :
    let last := b.after acts
    let history := b.since last
    b.executor.Gives (executions history) last.executor ∧
      (b.audiences acts).map Prod.snd = executions history ∧
      notices history = (b.audiences acts).flatMap (fun p => p.2.announcements p.1) ∧
      ∀ before listener later, acts = before ++ .listen listener :: later →
        listener ∉ b.listeners → .listen listener ∉ before → .listen listener ∉ later →
        heard listener history =
          (executions ((b.after before).since last)).flatMap Execution.notices := by
  intro last history
  obtain ⟨_, stretch⟩ := b.after_stretch acts
  obtain rfl : history = _ := stretch.since_eq
  refine ⟨stretch.executed, stretch.audiences, stretch.notices, ?_⟩
  rintro before listener later rfl unknown unheard once
  let added := (b.after before).listen listener
  obtain ⟨one, first⟩ := b.after_stretch before
  obtain ⟨two, second⟩ := added.after_stretch later
  have split : last = added.after later := List.foldl_append
  rw [← split] at second
  have journal : last.journal = (b.after before).journal ++ two := second.journal
  have since : (b.after before).since last = two := by
    rw [Bridge.since, journal, List.drop_left]
  have whole : history = one ++ two := by
    show b.since last = _
    rw [Bridge.since, journal, first.journal, List.append_assoc, List.drop_left]
  have none : b.listeners.count listener = 0 := List.count_eq_zero.mpr unknown
  have single : added.listeners.count listener = 1 := by
    rw [show added.listeners = (b.after before).listeners ++ [listener] from rfl, List.count_append,
      Bridge.count_listeners_after unheard, none, List.count_singleton_self]
  rw [whole, heard_append, first.heard_eq unheard, second.heard_eq once, none, single, since]
  have silent : (executions one).flatMap (fun x => x.notices.flatMap (List.replicate 0)) = [] :=
    List.flatMap_eq_nil_iff.mpr fun _ _ => rfl
  rw [silent, List.nil_append]
  rfl

namespace Bell

/-- A bridge with a listener, whose second script fails. -/
def bridge : Bridge :=
  (Bridge.new (Config.default none) (.rehearsal [.answers "1", .fails "no", .answers "2"])).listen
    "door"

/-- A second listener is added behind the first script. -/
def acts : List Act :=
  [.execute "a", .listen "bell", .commit { script := "b\n", compiles := true }, .execute "c"]

/-- The second listener hears of the script that is committed, which fails, and of the one that is
run directly then. -/
theorem heard_late :
    heard "bell" (bridge.since (bridge.after acts)) =
        [.start "b\n", .finish "b\n" none, .start "c", .finish "c" (some "2")] ∧
      (notices (bridge.since (bridge.after acts))).length = 10 := by
  obtain ⟨-, -, -, single⟩ := executions_announced bridge acts
  refine ⟨?_, rfl⟩
  rw [single [.execute "a"] "bell" _ rfl (by decide) (by simp) (by simp)]
  rfl

end Bell

end ScriptBridge
