import ScriptBridge.Proofs.Bridge.Invocation
/-!
Calls in a session and without one.

An invocation of a method that gives a result builds one fragment at most, and the same one in any
session that does not ignore results and without a session. What is sent with it differs, since a
session puts what is pending before it and its aspects around it; what the answer is read as does
not (`Call.invoke_alike`). So batching calls does not change what they give
(`batched_as_alone`).
-/
namespace ScriptBridge

open History

/-- The script that a fragment is sent in when a result is wanted. -/
def Scene.sends (scene : Scene) (text : String) : String :=
  match scene.session with
  | none => (scene.fragment text).wrapped
  | some session => session.script ++ (scene.fragment text).wrapped ++ "\n"

/-- Results are wanted: there is no session that ignores them. -/
def Scene.Attends (scene : Scene) : Prop :=
  ∀ session, scene.session = some session → session.ignoresResults = false

namespace Call

/-- Executing a fragment for a result sends it, and reads the answer, in a session or without. -/
theorem execute_alike {scene : Scene} (attends : scene.Attends) (text : String)
    {returns : ValueType} (wanted : returns.isVoid = false) :
    ∃ history, scene.bridge.Continues history ((execute text returns).run scene).2.bridge ∧
      fragments history = [scene.fragment text] ∧ scripts history = [scene.sends text] ∧
      ∀ answer, Answered answer history →
        ((execute text returns).run scene).1 = scene.read returns answer := by
  cases inSession : scene.session with
  | none =>
    obtain ⟨history, ran, continued⟩ :=
      (scene.noted text).ran_run (scene.fragment text).wrapped false
    obtain ⟨built, run⟩ := ran.isRun.of_built (scene.fragment text)
    have sends : scene.sends text = (scene.fragment text).wrapped := by rw [Scene.sends, inSession]
    rw [run_execute_alone inSession, sends]
    refine ⟨_, (scene.bridge.continues_note _).trans continued, built, run, fun _ answered => ?_⟩
    rw [ran.eq_ok answered.of_append.2]
    simp [Except.mapError, Except.bind, wanted]
  | some session =>
    obtain ⟨history, result, ran, gives, continued⟩ :=
      (scene.noted text).ran_flush (session.add (scene.fragment text).wrapped)
    obtain ⟨built, run⟩ := ran.isRun.of_built (scene.fragment text)
    have sends : scene.sends text = session.script ++ (scene.fragment text).wrapped ++ "\n" := by
      rw [Scene.sends, inSession]
    rw [run_execute_batched inSession, wanted, attends session inSession, Bool.or_false, sends]
    dsimp only
    rw [if_neg Bool.false_ne_true]
    refine ⟨_, (scene.bridge.continues_note _).trans continued, built, run, fun _ answered => ?_⟩
    rw [gives, ran.eq_ok answered.of_append.2]
    rfl

theorem run_interned (x : Call Value) (scene : Scene) :
    ∃ rest, Quiet rest ∧
      (x.run scene).2.bridge.Continues rest ((x >>= internResult).run scene).2.bridge ∧
      ((x >>= internResult).run scene).1 =
        (x.run scene).1.map (x.run scene).2.bridge.internedResult := by
  rw [run_bind]
  cases x.run scene with
  | mk outcome after =>
    cases outcome with
    | error e => exact ⟨[], .nil, .refl _, rfl⟩
    | ok value =>
      obtain ⟨b, session, handler⟩ := after
      obtain ⟨outcome, b', remarks, finished⟩ := closed_reads.internResult value b handler
      obtain ⟨rest, quiet, continued⟩ := remarks.quiet
      refine ⟨rest, quiet, ?_, run_internResult value _⟩
      dsimp only
      rw [finished]
      exact continued

/-! ## Plans -/

namespace Plan

/-- The text of the fragment that a plan executes. -/
def text? : Plan → Option String
  | refuse _ => none
  | read _ _ => none
  | send text _ => some text

/-- What a plan gives when everything that is run is answered by a text. -/
def result (b : Bridge) (h : Handler) (answer : String) : Plan → Except ScriptError Value
  | refuse e => .error e
  | read target reference => b.decode target reference
  | send _ returns => b.decode returns { object := some answer, application := h.application }

section
variable {plan : Plan} (within : plan.Within fun returns => returns.isVoid = false)
  {scene : Scene} (attends : scene.Attends)
include within attends

theorem call_alike :
    ∃ history, scene.bridge.Continues history (plan.call.run scene).2.bridge ∧
      fragments history = plan.text?.toList.map scene.fragment ∧
      scripts history = plan.text?.toList.map scene.sends ∧
      ∀ answer, Answered answer history →
        (plan.call.run scene).1 = plan.result scene.bridge scene.handler answer := by
  cases plan with
  | refuse e => exact ⟨[], .refl _, rfl, rfl, fun _ _ => rfl⟩
  | read target reference =>
    rw [call, run_decode]
    exact ⟨[], .refl _, rfl, rfl, fun _ _ => rfl⟩
  | send text returns => exact execute_alike attends text within

theorem interned_alike :
    ∃ history, scene.bridge.Continues history ((plan.call >>= internResult).run scene).2.bridge ∧
      fragments history = plan.text?.toList.map scene.fragment ∧
      scripts history = plan.text?.toList.map scene.sends ∧
      ∀ answer, Answered answer history → ((plan.call >>= internResult).run scene).1 =
        (plan.result scene.bridge scene.handler answer).map scene.bridge.internedResult := by
  obtain ⟨history, continued, built, sent, gives⟩ := call_alike within attends
  obtain ⟨rest, quiet, continued', interned⟩ := run_interned plan.call scene
  refine ⟨history ++ rest, continued.trans continued', ?_, ?_, fun answer answered => ?_⟩
  · rw [fragments_append, quiet.fragments_eq, List.append_nil, built]
  · rw [scripts_append, quiet.scripts_eq, List.append_nil, sent]
  · rw [interned, gives answer answered.of_append.1, continued.internedResult_eq]

end

theorem prepared_alike {plan : Plan} (within : plan.Within fun returns => returns.isVoid = false)
    {b ready : Bridge} (remarks : b.Remarks ready) {session : Option Session} {h : Handler}
    (attends : Scene.Attends ⟨b, session, h⟩) :
    let scene : Scene := ⟨b, session, h⟩
    let done := (plan.call >>= internResult).run ⟨ready, session, h⟩
    let history := b.since done.2.bridge
    fragments history = plan.text?.toList.map scene.fragment ∧
      scripts history = plan.text?.toList.map scene.sends ∧
      ∀ answer, Answered answer history →
        done.1 = (plan.result ready h answer).map ready.internedResult := by
  intro scene done history
  obtain ⟨before, quiet, prepared⟩ := remarks.quiet
  obtain ⟨rest, continued, built, sent, gives⟩ :=
    interned_alike within (show Scene.Attends ⟨ready, session, h⟩ from attends)
  have since : history = before ++ rest := (prepared.trans continued).since_eq
  have fragment : Scene.fragment ⟨ready, session, h⟩ = scene.fragment :=
    prepared.fragment_eq session h
  have sends : Scene.sends ⟨ready, session, h⟩ = scene.sends := by
    funext text
    rw [Scene.sends, Scene.sends, fragment]
  refine ⟨?_, ?_, fun answer answered => ?_⟩
  · rw [since, fragments_append, quiet.fragments_eq, built, fragment, List.nil_append]
  · rw [since, scripts_append, quiet.scripts_eq, sent, sends, List.nil_append]
  · rw [since] at answered
    exact gives answer answered.of_append.2

end Plan

/-! ## Invocations -/

variable {b : Bridge} {h : Handler} {md : Model} {m : Method} {method : String}

/-- What an invocation for a result builds and what an answer to it is read as is the same whether
it is made in a session or not. -/
theorem invoke_alike
    (resolved : b.applications.resolve? h.application h.object.interface = some md)
    (declared : md.method? h.object.interface method = some m) (wanted : m.returns.isVoid = false)
    (arguments : List Value) :
    ∃ (text? : Option String) (outcome : String → Except ScriptError Value), ∀ session,
      Scene.Attends ⟨b, session, h⟩ →
        let scene : Scene := ⟨b, session, h⟩
        let done := (invoke method arguments).run scene
        let history := b.since done.2.bridge
        fragments history = text?.toList.map scene.fragment ∧
          scripts history = text?.toList.map scene.sends ∧
          ∀ answer, Answered answer history → done.1 = outcome answer := by
  have planned := (prepared_plans fun returns => returns.isVoid = false).perform wanted
    (fun _ => rfl) md arguments
  obtain ⟨plan, ready, within, remarks, ran⟩ := planned.finished internResult b h
  refine ⟨plan.text?, fun answer => (plan.result ready h answer).map ready.internedResult,
    fun session attends => ?_⟩
  dsimp only
  rw [(run_invoke resolved declared arguments).trans (ran session)]
  exact Plan.prepared_alike within remarks attends

end Call

/-- **Batching does not change results.** An invocation of a method that gives a result, made in a
session that does not ignore results, and the same one made without a session build the same
fragment, if any; alone it is sent by itself, and in the session after what is pending. As long as
what they run is answered by the same text, they give the same result or the same error. -/
theorem batched_as_alone {b : Bridge} {h : Handler} {session : Session} {md : Model} {m : Method}
    {method : String}
    (resolved : b.applications.resolve? h.application h.object.interface = some md)
    (declared : md.method? h.object.interface method = some m) (wanted : m.returns.isVoid = false)
    (attends : session.ignoresResults = false) (arguments : List Value) :
    let alone : Scene := ⟨b, none, h⟩
    let batched : Scene := ⟨b, some session, h⟩
    let one := (Call.invoke method arguments).run alone
    let other := (Call.invoke method arguments).run batched
    (∀ answer, Answered answer (b.since one.2.bridge) → Answered answer (b.since other.2.bridge) →
        one.1 = other.1) ∧
      ((fragments (b.since one.2.bridge) = [] ∧ scripts (b.since one.2.bridge) = [] ∧
          fragments (b.since other.2.bridge) = [] ∧ scripts (b.since other.2.bridge) = []) ∨
        ∃ text, fragments (b.since one.2.bridge) = [alone.fragment text] ∧
          scripts (b.since one.2.bridge) = [(alone.fragment text).wrapped] ∧
          fragments (b.since other.2.bridge) = [batched.fragment text] ∧
          scripts (b.since other.2.bridge) =
            [session.script ++ (batched.fragment text).wrapped ++ "\n"]) := by
  intro alone batched one other
  obtain ⟨text?, outcome, alike⟩ := Call.invoke_alike resolved declared wanted arguments
  obtain ⟨built, sent, gives⟩ := alike none fun _ inSession => by cases inSession
  obtain ⟨built', sent', gives'⟩ := alike (some session) fun _ inSession => by
    rwa [← Option.some.inj inSession]
  refine ⟨fun answer answered answered' =>
    (gives answer answered).trans (gives' answer answered').symm, ?_⟩
  cases text? with
  | none => exact .inl ⟨built, sent, built', sent'⟩
  | some text => exact .inr ⟨text, built, sent, built', sent'⟩

namespace Jukebox

def reference : String := "application \"Jukebox\""

/-- An application that tells its own class. -/
def dictionary : Dictionary where
  interface := "Jukebox"
  classes := [{
    interface := "Jukebox"
    name := some "application"
    code := some "capp"
    methods := [{
      name := "get_kind"
      kind := .property
      scriptName := some "class"
      returns := .typeClass }] }]

def bridge : Bridge :=
  ((Bridge.new (Config.default none) (.rehearsal [.answers "«class capp»"])).register
    dictionary "Jukebox").2

def model : Model := (Model.build dictionary reference).toOption.getD default

def root : Handler where
  object := { interface := "Jukebox", reference := .root reference }
  reduces := true

/-- A session with something pending and an aspect of its own, whose scripts are compiled. -/
def session : Session where
  script := "play\n"
  aspects := [{ handle := 0, item := .timeout 30 }]
  compiles := true

def alone := (Call.invoke "get_kind" []).run ⟨bridge, none, root⟩

def batched := (Call.invoke "get_kind" []).run ⟨bridge, some session, root⟩

def declared : TypeClass where
  label := { name := some "application", code := some "«class capp»",
             application := some reference, interface := some "Jukebox" }

/-- The declared class is given in the session too, in which what was pending is sent before. -/
theorem kind_in_session :
    alone.1 = .ok (.typeClass declared) ∧ batched.1 = .ok (.typeClass declared) ∧
      ∃ wrapped, scripts (bridge.since batched.2.bridge) = ["play\n" ++ wrapped ++ "\n"] := by
  have answered : results (bridge.since alone.2.bridge) = [.ok "«class capp»"] := by rfl
  have answered' : results (bridge.since batched.2.bridge) = [.ok "«class capp»"] := by rfl
  have interned : alone.1 = .ok (.typeClass declared) := by rfl
  have resolved : bridge.applications.resolve? root.application "Jukebox" = some model := by rfl
  have found : model.method? "Jukebox" "get_kind" = some dictionary.classes[0].methods[0] := by rfl
  obtain ⟨same, sent⟩ := batched_as_alone resolved found rfl (rfl : session.ignoresResults = false) []
  have equal : alone.1 = batched.1 := by
    refine same "«class capp»" (fun result inside => ?_) (fun result inside => ?_)
    · exact List.mem_singleton.mp (answered ▸ inside)
    · exact List.mem_singleton.mp (answered' ▸ inside)
  refine ⟨interned, equal ▸ interned, ?_⟩
  obtain ⟨-, -, none, -⟩ | ⟨text, -, -, -, sent⟩ := sent
  · have built : (fragments (bridge.since batched.2.bridge)).length = 1 := by rfl
    cases built.symm.trans (congrArg List.length none)
  · exact ⟨_, sent⟩

end Jukebox

end ScriptBridge
