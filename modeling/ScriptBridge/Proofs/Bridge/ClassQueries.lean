import ScriptBridge.Proofs.Bridge.Batch
import ScriptBridge.Proofs.Bridge.Invocation
/-!
What a failing question for the class of an object leaves in its session.

The question is a fragment like any other. If the session does not ignore results it is sent with
all that is pending, and nothing is pending then, whether its answer is an error, cannot be read or
is no class. If the session ignores results it is only added to what is pending, and gives nothing;
nothing is no class, so the question fails for good and stays in the buffer.

So what fails has left its session clean exactly in the sessions that do not ignore results
(`session_after_class_query`).
-/
namespace ScriptBridge

open History

/-- The requests that ask for the class of the object. -/
def Request.AsksClass : Request → Prop
  | objectClass => True
  | isInstanceOf _ => True
  | _ => False

/-- The fragment that asks for the class of the object. -/
def Scene.classQuery (scene : Scene) : Fragment :=
  scene.fragment ("return class" ++ scene.handler.ofClause)

/-- A call has executed nothing, and what is pending in its session is what was; or it has executed
that with its query as one script, and nothing is pending. -/
def LeavesClean (session : Session) (query : Fragment) (before after : Scene) : Prop :=
  (scripts (before.bridge.since after.bridge) = [] ∧
      after.session.map Session.script = some session.script) ∨
    (scripts (before.bridge.since after.bridge) = [session.script ++ query.wrapped ++ "\n"] ∧
      after.session.map Session.script = some "")

/-- What a question for the class leaves when it fails. -/
structure FailedQuery (session : Session) (query : Fragment) (before after : Scene)
    (history : List Entry) : Prop where
  unknown : before.handler.known = none
  continued : before.bridge.Continues history after.bridge
  built : fragments history = [query]
  kept : session.ignoresResults = true → scripts history = [] ∧
    after.bridge.executor = before.bridge.executor ∧
    after.session = some (session.add query.wrapped)
  sent : session.ignoresResults = false →
    scripts history = [session.script ++ query.wrapped ++ "\n"] ∧
    after.session = some { session with script := "" }

namespace FailedQuery

variable {session : Session} {query : Fragment} {before after : Scene} {history : List Entry}

theorem leavesClean_iff (h : FailedQuery session query before after history) :
    LeavesClean session query before after ↔ session.ignoresResults = false := by
  have since : before.bridge.since after.bridge = history := h.continued.since_eq
  unfold LeavesClean
  rw [since]
  cases ignores : session.ignoresResults with
  | false =>
    obtain ⟨sent, flushed⟩ := h.sent ignores
    exact iff_of_true (.inr ⟨sent, congrArg (Option.map Session.script) flushed⟩) rfl
  | true =>
    obtain ⟨unsent, -, added⟩ := h.kept ignores
    refine iff_of_false ?_ (by decide)
    rintro (⟨-, unchanged⟩ | ⟨sent, -⟩)
    · -- what was added ends in a line feed
      rw [added, Option.map_some, Option.some.injEq] at unchanged
      have longer := congrArg String.length unchanged
      rw [Session.add, String.length_append, String.length_append] at longer
      have one : "\n".length = 1 := rfl
      omega
    · cases unsent.symm.trans sent

theorem after_remarks {b : Bridge} (remarks : before.bridge.Remarks b)
    (h : FailedQuery session query { before with bridge := b } after history) :
    ∃ history, FailedQuery session query before after history := by
  obtain ⟨earlier, quiet, continued⟩ := remarks.quiet
  refine ⟨earlier ++ history, h.unknown, continued.trans h.continued, ?_, ?_, ?_⟩
  · rw [fragments_append, quiet.fragments_eq, List.nil_append, h.built]
  · intro ignores
    obtain ⟨unsent, executor, added⟩ := h.kept ignores
    rw [scripts_append, quiet.scripts_eq, List.nil_append]
    exact ⟨unsent, executor.trans remarks.executor, added⟩
  · intro attends
    rw [scripts_append, quiet.scripts_eq, List.nil_append]
    exact h.sent attends

end FailedQuery

namespace Call

theorem failed_of_objectClass {scene : Scene} {e : ScriptError}
    (failed : (objectClass.run scene).1 = .error e) :
    scene.handler.known = none ∧ (objectClass.run scene).2 =
      ((execute ("return class" ++ scene.handler.ofClause) .typeClass).run scene).2 := by
  rw [objectClass, run_bind_ok (run_handler scene)] at failed ⊢
  cases known : scene.handler.known with
  | some c =>
    rw [known] at failed
    cases failed
  | none =>
    rw [known] at failed
    refine ⟨rfl, ?_⟩
    dsimp only at failed ⊢
    rw [run_bind] at failed ⊢
    cases ran : (execute ("return class" ++ scene.handler.ofClause) .typeClass).run scene with
    | mk answer after =>
      rw [ran] at failed
      cases answer with
      | error e' => rfl
      | ok value =>
        dsimp only at failed ⊢
        split at failed
        · cases failed
        · rfl

theorem failedQuery_of_objectClass {scene : Scene} {session : Session}
    (inSession : scene.session = some session) {e : ScriptError}
    (failed : (objectClass.run scene).1 = .error e) :
    ∃ history, FailedQuery session scene.classQuery scene (objectClass.run scene).2 history := by
  obtain ⟨unknown, left⟩ := failed_of_objectClass failed
  have noted := scene.bridge.continues_note (.built scene.classQuery)
  rw [left, run_execute_batched inSession,
    show ValueType.typeClass.isVoid = false from rfl, Bool.false_or]
  dsimp only
  by_cases ignores : session.ignoresResults = true
  · rw [if_pos ignores]
    refine ⟨_, unknown, noted, rfl, fun _ => ⟨rfl, rfl, rfl⟩, fun attends => ?_⟩
    cases ignores.symm.trans attends
  · obtain ⟨history, ran, continued⟩ := (scene.noted ("return class" ++ scene.handler.ofClause))
      |>.continues_flush (session.add scene.classQuery.wrapped)
    obtain ⟨built, run⟩ := ran.of_built scene.classQuery
    rw [if_neg ignores]
    exact ⟨_, unknown, noted.trans continued, built, fun kept => absurd kept ignores,
      fun _ => ⟨run, rfl⟩⟩

/-- In a session that ignores results, a class that is not known is never reported. -/
theorem run_objectClass_ignoring {scene : Scene} {session : Session}
    (inSession : scene.session = some session) (ignores : session.ignoresResults = true)
    (unknown : scene.handler.known = none) :
    (objectClass.run scene).1 = .error (.config (.noClassReported scene.handler.object .null)) := by
  rw [objectClass, run_bind_ok (run_handler scene), unknown]
  dsimp only
  rw [run_bind, run_execute_batched inSession, ignores, Bool.or_true]
  rfl

/-- Whatever asks for the class does so in a scene that differs by remarks. -/
theorem run_asksClass {request : Request} (asks : request.AsksClass) (scene : Scene) :
    ∃ b, scene.bridge.Remarks b ∧
      let asked := objectClass.run { scene with bridge := b }
      request.call.run scene = (asked.1.map fun _ => (), asked.2) := by
  cases request with
  | objectClass => exact ⟨scene.bridge, .refl _, run_discard _ _⟩
  | isInstanceOf c =>
    obtain ⟨_, b, remarks, ran⟩ := closed_reads.intern c scene.bridge scene.handler
    -- Interning does not fail, and what it does to the bridge is what reading does.
    have interned := (run_intern scene c).symm.trans (ran scene.session)
    refine ⟨b, remarks, ?_⟩
    rw [← (Prod.mk.inj interned).2, Request.call, run_discard, isInstanceOf,
      run_bind_ok (run_intern scene c), run_bind]
    cases objectClass.run { scene with bridge := (scene.bridge.intern c).2 } with
    | mk result after => cases result <;> rfl
  | invoke _ _ => cases asks
  | properties => cases asks

section
variable {scene : Scene} {session : Session} (inSession : scene.session = some session)
  {request : Request} (asks : request.AsksClass)
include inSession asks

theorem failedQuery_of_asksClass {e : ScriptError}
    (failed : (request.call.run scene).1 = .error e) :
    ∃ history, FailedQuery session scene.classQuery scene (request.call.run scene).2 history := by
  obtain ⟨b, remarks, ran⟩ := run_asksClass asks scene
  dsimp only at ran
  have query : Scene.classQuery { scene with bridge := b } = scene.classQuery := by
    obtain ⟨_, -, continued⟩ := remarks.quiet
    unfold Scene.classQuery Scene.fragment
    dsimp only
    rw [continued.aspectList_eq]
  rw [ran] at failed ⊢
  cases refused : (objectClass.run { scene with bridge := b }).1 with
  | error e' =>
    obtain ⟨history, asked⟩ := failedQuery_of_objectClass
      (show Scene.session { scene with bridge := b } = some session from inSession) refused
    rw [query] at asked
    exact asked.after_remarks remarks
  | ok c =>
    rw [refused] at failed
    cases failed

theorem run_asksClass_ignoring (ignores : session.ignoresResults = true)
    (unknown : scene.handler.known = none) :
    (request.call.run scene).1 =
      .error (.config (.noClassReported scene.handler.object .null)) := by
  obtain ⟨b, -, ran⟩ := run_asksClass asks scene
  have refused := run_objectClass_ignoring
    (show Scene.session { scene with bridge := b } = some session from inSession) ignores unknown
  rw [ran, refused]
  rfl

end
end Call

/-- **A question for the class that fails leaves its session clean, unless the session ignores
results.** If it fails the class was not known before, and the question was built; it was sent in
one script with what was pending, and nothing is pending, if the session does not ignore results,
and else it was not sent and is pending. In a session that ignores results it fails for every class
that is not known. -/
theorem session_after_class_query {scene : Scene} {session : Session}
    (inSession : scene.session = some session) {request : Request} (asks : request.AsksClass) :
    let done := request.call.run scene
    (∀ e, done.1 = .error e → FailedQuery session scene.classQuery scene done.2
      (scene.bridge.since done.2.bridge)) ∧
    ((∀ e, done.1 = .error e → LeavesClean session scene.classQuery scene done.2) ↔
      (session.ignoresResults = true → scene.handler.known.isSome)) ∧
    (session.ignoresResults = true → scene.handler.known = none →
      done.1 = .error (.config (.noClassReported scene.handler.object .null))) := by
  intro done
  have failing : ∀ e, done.1 = .error e → FailedQuery session scene.classQuery scene done.2
      (scene.bridge.since done.2.bridge) := by
    intro e failed
    obtain ⟨history, asked⟩ := Call.failedQuery_of_asksClass inSession asks failed
    rwa [show scene.bridge.since done.2.bridge = history from asked.continued.since_eq]
  have ignoring := Call.run_asksClass_ignoring inSession asks
  refine ⟨failing, ⟨fun clean ignores => ?_, fun known e failed => ?_⟩, ignoring⟩
  · cases known : scene.handler.known with
    | some c => rfl
    | none =>
      have failed := ignoring ignores known
      rw [(failing _ failed).leavesClean_iff.mp (clean _ failed)] at ignores
      cases ignores
  · have asked := failing e failed
    refine asked.leavesClean_iff.mpr (Bool.eq_false_iff.mpr fun ignores => ?_)
    rw [asked.unknown] at known
    cases known ignores

namespace Shelf

/-- A session that ignores results, in which something is pending. -/
def session : Session := { script := "beep\n", ignoresResults := true }

/-- An application that would report its class. -/
def scene : Scene where
  bridge := Bridge.new (Config.default none) (.rehearsal [.answers "«class capp»"])
  session := some session
  handler := {
    object := { interface := "Shelf", reference := .root "application \"Shelf\"" }
    reduces := true }

def asked := Request.objectClass.call.run scene

/-- The application is not asked for its class, but the question is pending from then on. -/
theorem class_not_asked :
    asked.1 = .error (.config (.noClassReported scene.handler.object .null)) ∧
      scripts (scene.bridge.since asked.2.bridge) = [] ∧
      asked.2.session.map Session.script = some ("beep\n" ++ scene.classQuery.wrapped ++ "\n") ∧
      ¬ LeavesClean session scene.classQuery scene asked.2 := by
  obtain ⟨failing, clean, ignoring⟩ :=
    session_after_class_query (rfl : scene.session = some session)
      (show Request.objectClass.AsksClass from trivial)
  have failed := ignoring rfl rfl
  have query := failing _ failed
  obtain ⟨unsent, -, added⟩ := query.kept rfl
  refine ⟨failed, unsent, congrArg (Option.map Session.script) added, fun left => ?_⟩
  cases query.leavesClean_iff.mp left

end Shelf

end ScriptBridge
