import ScriptBridge.Proofs.Bridge.Calls
/-!
What an invocation comes to.

Up to its fragment an invocation reads the bridge and its handler and logs, and does so alike in a
session and without one (`Reads`). Then it does one thing, its `Plan`: it is refused, it reads a
specifier of its own making, or it executes a fragment (`plans_invoke`). After that nothing fails
any more, because interning a class that was answered gives a class in any case.

So an invocation that fails in a session was refused with the session as it was, or its fragment was
sent with all that was pending, and nothing is pending then (`session_after_failure`).
-/
namespace ScriptBridge

open History

/-- The one bridge became the other by logging. -/
structure Bridge.Remarks (before after : Bridge) : Prop where
  executor : after.executor = before.executor
  quiet : ∃ history, Quiet history ∧ before.Continues history after

namespace Bridge.Remarks

theorem refl (b : Bridge) : Remarks b b := ⟨rfl, [], Quiet.nil, .refl b⟩

theorem trans {a b c : Bridge} (h₁ : Remarks a b) (h₂ : Remarks b c) : Remarks a c := by
  obtain ⟨one, quiet, continued⟩ := h₁.quiet
  obtain ⟨two, quiet', continued'⟩ := h₂.quiet
  exact ⟨h₂.executor.trans h₁.executor, one ++ two, quiet.append quiet', continued.trans continued'⟩

theorem log (b : Bridge) (level : Level) (message : String) : Remarks b (b.log level message) :=
  ⟨rfl, _, Quiet.logged level message, b.continues_log level message⟩

end Bridge.Remarks

/-- A result as it is once the class that it may be is replaced by the declared one. -/
def Bridge.internedResult (b : Bridge) : Value → Value
  | .typeClass c =>
    if c.label.application.isSome then .typeClass (b.internTypeClass c) else .typeClass c
  | other => other

theorem Bridge.Continues.internedResult_eq {before after : Bridge} {history : List Entry}
    (h : Continues before history after) : after.internedResult = before.internedResult := by
  funext value
  unfold internedResult
  rw [h.internTypeClass_eq]

namespace Call

/-! ## Preparations -/

/-- A call that reads the bridge and the handler and logs, and does the same in any session. -/
def Reads {α : Type} (x : Call α) : Prop :=
  ∀ b h, ∃ (result : Except ScriptError α) (b' : Bridge), b.Remarks b' ∧
    ∀ session, x.run ⟨b, session, h⟩ = (result, ⟨b', session, h⟩)

theorem closed_reads : Closed Reads where
  pure a b _ := ⟨.ok a, b, .refl b, fun _ => rfl⟩
  throw e b _ := ⟨.error e, b, .refl b, fun _ => rfl⟩
  bind := by
    intro α β x f hx hf b h
    obtain ⟨result, b', remarks, ran⟩ := hx b h
    cases result with
    | error e => exact ⟨.error e, b', remarks, fun session => by rw [run_bind, ran]⟩
    | ok a =>
      obtain ⟨result, b'', remarks', ran'⟩ := hf a b' h
      exact ⟨result, b'', remarks.trans remarks',
        fun session => (run_bind_ok (ran session) f).trans (ran' session)⟩
  handler b h := ⟨.ok h, b, .refl b, fun _ => rfl⟩
  bridge b _ := ⟨.ok b, b, .refl b, fun _ => rfl⟩
  log level message b _ := ⟨.ok (), _, .log b level message, fun _ => rfl⟩

/-! ## Plans -/

/-- What an invocation does once it is prepared. -/
inductive Plan where
  | refuse (e : ScriptError)
  | read (target : ValueType) (reference : Reference)
  | send (text : String) (returns : ValueType)

/-- Carries out a plan. -/
def Plan.call : Plan → Call Value
  | refuse e => throw e
  | read target reference => decode target reference
  | send text returns => execute text returns

/-- What a plan executes gives what is wanted. -/
def Plan.Within (Wanted : ValueType → Prop) : Plan → Prop
  | refuse _ => True
  | read _ _ => True
  | send _ returns => Wanted returns

/-- A call that is prepared alike in any session, and then carries out a plan and finishes with what
that gives. -/
def Plans (Wanted : ValueType → Prop) (finish : Value → Call Value) (x : Call Value) : Prop :=
  ∀ b h, ∃ (plan : Plan) (b' : Bridge), plan.Within Wanted ∧ b.Remarks b' ∧
    ∀ session, x.run ⟨b, session, h⟩ = (plan.call >>= finish).run ⟨b', session, h⟩

namespace Plans

variable {Wanted : ValueType → Prop} {finish : Value → Call Value}

theorem refuse (e : ScriptError) : Plans Wanted finish (throw e) := by
  refine fun b h => ⟨.refuse e, b, trivial, .refl b, fun session => ?_⟩
  rw [run_bind, Plan.call, run_throw]

theorem carry (plan : Plan) (within : plan.Within Wanted) : Plans Wanted pure plan.call := by
  refine fun b h => ⟨plan, b, within, .refl b, fun session => ?_⟩
  rw [bind_pure]

theorem after {α : Type} {x : Call α} {f : α → Call Value} (hx : Reads x)
    (hf : ∀ a, Plans Wanted finish (f a)) : Plans Wanted finish (x >>= f) := by
  intro b h
  obtain ⟨result, b', remarks, ran⟩ := hx b h
  cases result with
  | error e =>
    obtain ⟨plan, b'', within, remarks', ran'⟩ :=
      (refuse e : Plans Wanted finish (throw e)) b' h
    refine ⟨plan, b'', within, remarks.trans remarks', fun session => ?_⟩
    rw [run_bind, ran, ← ran', run_throw]
  | ok a =>
    obtain ⟨plan, b'', within, remarks', ran'⟩ := hf a b' h
    exact ⟨plan, b'', within, remarks.trans remarks',
      fun session => (run_bind_ok (ran session) f).trans (ran' session)⟩

theorem finished {x : Call Value} (h : Plans Wanted pure x) (finish : Value → Call Value) :
    Plans Wanted finish (x >>= finish) := by
  intro b handler
  obtain ⟨plan, b', within, remarks, ran⟩ := h b handler
  refine ⟨plan, b', within, remarks, fun session => ?_⟩
  rw [run_bind, ran, bind_pure, ← run_bind]

end Plans

theorem prepared_plans (Wanted : ValueType → Prop) :
    Prepared Wanted Reads (Plans Wanted pure) where
  closed := closed_reads
  after := Plans.after
  refuse := Plans.refuse
  decode target reference := .carry (.read target reference) trivial
  execute text returns wanted := .carry (.send text returns) wanted

/-- Up to its fragment an invocation does the same in any session, and after it the result is only
interned. -/
theorem plans_invoke (method : String) (arguments : List Value) (b : Bridge) (h : Handler) :
    ∃ (plan : Plan) (b' : Bridge), b.Remarks b' ∧ ∀ session,
      (invoke method arguments).run ⟨b, session, h⟩ =
        (plan.call >>= internResult).run ⟨b', session, h⟩ := by
  have planned : Plans (fun _ => True) internResult (invoke method arguments) := by
    rw [invoke_eq]
    refine .after closed_reads.model fun md => .after closed_reads.handler fun h => ?_
    split
    · exact .refuse _
    · exact ((prepared_plans _).perform trivial (fun _ => trivial) md arguments).finished _
  obtain ⟨plan, b', -, remarks, ran⟩ := planned b h
  exact ⟨plan, b', remarks, ran⟩

/-! ## Failures -/

theorem run_internResult (value : Value) (scene : Scene) :
    ((internResult value).run scene).1 = .ok (scene.bridge.internedResult value) := by
  unfold internResult
  split
  · next c =>
    dsimp only [Bridge.internedResult]
    cases c.label.application.isSome <;> rfl
  · next other =>
    rw [run_pure, Bridge.internedResult]
    exact other

theorem failed_of_interned {x : Call Value} {scene : Scene} {e : ScriptError}
    (failed : ((x >>= internResult).run scene).1 = .error e) :
    (x.run scene).1 = .error e ∧ ((x >>= internResult).run scene).2 = (x.run scene).2 := by
  rw [run_bind] at failed ⊢
  cases ran : x.run scene with
  | mk outcome after =>
    rw [ran] at failed
    cases outcome with
    | error e' => exact ⟨failed, rfl⟩
    | ok value =>
      cases (run_internResult value after).symm.trans failed

/-- A plan that fails in a session has done nothing, or has sent its fragment with all that was
pending. -/
theorem Plan.failed {plan : Plan} {scene : Scene} {session : Session} {e : ScriptError}
    (inSession : scene.session = some session) (failed : (plan.call.run scene).1 = .error e) :
    (plan.call.run scene).2 = scene ∨
      ∃ text b history, scene.bridge.Continues history b ∧
        fragments history = [scene.fragment text] ∧
        scripts history = [session.script ++ (scene.fragment text).wrapped ++ "\n"] ∧
        (plan.call.run scene).2 =
          { scene with bridge := b, session := some { session with script := "" } } := by
  cases plan with
  | refuse e => exact .inl rfl
  | read target reference => exact .inl (by rw [Plan.call, run_decode])
  | send text returns =>
    rw [Plan.call, run_execute_batched inSession] at failed ⊢
    dsimp only at failed ⊢
    split at failed
    · cases failed
    · next wanted =>
      obtain ⟨sent, isRun, continued⟩ :=
        (scene.noted text).continues_flush (session.add (scene.fragment text).wrapped)
      obtain ⟨built, run⟩ := isRun.of_built (scene.fragment text)
      refine .inr ⟨text, _, _, (scene.bridge.continues_note _).trans continued, built, run, ?_⟩
      rw [if_neg wanted]

end Call

/-- **A failing invocation leaves its session in one of two states.** Either it ran nothing and the
session is as it was; or it ran one script, which is what was pending followed by its fragment with
the aspects around it and a line feed, and then nothing is pending and the session is otherwise as
it was. -/
theorem session_after_failure {scene : Scene} {session : Session}
    (inSession : scene.session = some session) {method : String} {arguments : List Value}
    {e : ScriptError} (failed : ((Call.invoke method arguments).run scene).1 = .error e) :
    let after := ((Call.invoke method arguments).run scene).2
    let history := scene.bridge.since after.bridge
    (fragments history = [] ∧ scripts history = [] ∧
        after.bridge.executor = scene.bridge.executor ∧ after.session = some session) ∨
      ∃ text, fragments history = [scene.fragment text] ∧
        scripts history = [session.script ++ (scene.fragment text).wrapped ++ "\n"] ∧
        after.session = some { session with script := "" } := by
  obtain ⟨b, current, handler⟩ := scene
  obtain rfl : current = some session := inSession
  intro after history
  obtain ⟨plan, ready, remarks, ran⟩ := Call.plans_invoke method arguments b handler
  obtain ⟨before, quiet, prepared⟩ := remarks.quiet
  rw [ran] at failed
  obtain ⟨refused, same⟩ := Call.failed_of_interned failed
  have left : after = (plan.call.run ⟨ready, some session, handler⟩).2 := by rw [← same, ← ran]
  obtain unmoved | ⟨text, b', sending, sent, built, run, flushed⟩ := Call.Plan.failed rfl refused
  · have remarked : after.bridge = ready := by rw [left, unmoved]
    have since : history = before := (remarked ▸ prepared).since_eq
    refine .inl ⟨?_, ?_, ?_, ?_⟩
    · rw [since, quiet.fragments_eq]
    · rw [since, quiet.scripts_eq]
    · rw [remarked, remarks.executor]
    · rw [left, unmoved]
  · -- The bridge that was prepared has the aspects that it had before.
    have fragment : Scene.fragment ⟨ready, some session, handler⟩ text =
        Scene.fragment ⟨b, some session, handler⟩ text := by
      rw [Scene.fragment, Scene.fragment, prepared.aspectList_eq]
    have sent_bridge : after.bridge = b' := by rw [left, flushed]
    have since : history = before ++ sending :=
      (sent_bridge ▸ prepared.trans sent).since_eq
    refine .inr ⟨text, ?_, ?_, ?_⟩
    · rw [since, fragments_append, quiet.fragments_eq, built, fragment, List.nil_append]
    · rw [since, scripts_append, quiet.scripts_eq, run, fragment, List.nil_append]
    · rw [left, flushed]

namespace Player

/-- An application with a number for its volume. -/
def dictionary : Dictionary where
  interface := "Player"
  classes := [{
    interface := "Player"
    name := some "application"
    methods := [{
      name := "getVolume"
      kind := .property
      scriptName := some "sound volume"
      returns := .integer }] }]

/-- A session in which something is pending, when the application answers with a word. -/
def scene : Scene where
  bridge := ((Bridge.new (Config.default none) (.rehearsal [.answers "loud"])).register
    dictionary "Player").2
  session := some { script := "play\n", ignoresResults := false, compiles := true }
  handler := {
    object := { interface := "Player", reference := .root "application \"Player\"" }
    reduces := true }

def after : Scene := ((Call.invoke "getVolume" []).run scene).2

/-- The volume cannot be read, and what was pending has been sent with the question. -/
theorem unreadable_volume :
    (∃ e, ((Call.invoke "getVolume" []).run scene).1 = .error e) ∧
      scripts (scene.bridge.since after.bridge) =
        ["play\n" ++ (scene.fragment "return sound volume").wrapped ++ "\n"] ∧
      after.session = some { script := "", compiles := true } := by
  have failed : ((Call.invoke "getVolume" []).run scene).1 = .error (.decode .integer
      { object := some "loud", application := some "application \"Player\"" }
      (.number "loud" .badDigit)) := by rfl
  have built : fragments (scene.bridge.since after.bridge) =
      [scene.fragment "return sound volume"] := by rfl
  obtain ⟨none, -⟩ | ⟨text, one, sent, flushed⟩ := session_after_failure rfl failed
  · cases built.symm.trans none
  · rw [List.cons.inj (built.symm.trans one) |>.1]
    exact ⟨⟨_, failed⟩, sent, flushed⟩

end Player

end ScriptBridge
