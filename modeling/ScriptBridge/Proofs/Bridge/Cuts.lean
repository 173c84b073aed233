import Mathlib.Data.List.SplitBy
import ScriptBridge.Proofs.Bridge.Batch
/-!
Where the fragments of a session are cut into scripts.

A fragment that is built in a session is sent at once, with all that is pending, if its result is
wanted: if the session does not ignore results and the call asks for one (`Scene.wants`). Else it
stays pending, and the next one follows it in its script. So the scripts of a session, that of its
commit included, are its fragments cut after each one whose result was wanted
(`scripts_cut_at_results`).

A script ends where it returns. A fragment that returns cuts off those that follow it in its script,
and that happens to exactly those that are followed at all and whose result was not wanted.
-/
namespace ScriptBridge

open History

/-- Whether a fragment is a return at the top of its script. -/
def Fragment.returns (f : Fragment) : Bool := "return ".toList.isPrefixOf f.text.toList

/-! ## What is wanted -/

/-- Whether a request asks for no result: it invokes a method that returns none. What is made is
always asked for. -/
def Request.isVoid (scene : Scene) : Request → Bool
  | invoke method _ => (scene.method? method).any fun m => m.kind ≠ .make && m.returns.isVoid
  | _ => false

/-- Whether the results of the fragments of a request are wanted. -/
def Scene.wants (scene : Scene) (request : Request) : Bool :=
  !(request.isVoid scene || scene.session.any Session.ignoresResults)

/-- A fragment, and whether its result was wanted when it was built. -/
structure Posted where
  fragment : Fragment
  wanted : Bool

/-- The fragments of a history, posted with one answer to whether their results were wanted. -/
def postAll (wanted : Bool) (history : List Entry) : List Posted :=
  (fragments history).map (⟨·, wanted⟩)

/-- The script of posted fragments that are sent together. -/
def postedText (batch : List Posted) : String := batchText (batch.map Posted.fragment)

/-- Posted fragments, cut after each one whose result was wanted. -/
def cut (posts : List Posted) : List (List Posted) := posts.splitBy fun p _ => !p.wanted

/-- In one of the batches a fragment that returns is followed by another one. -/
def CutsOff (batches : List (List Posted)) : Prop :=
  ∃ batch ∈ batches, ∃ p ∈ batch.dropLast, p.fragment.returns = true

namespace Batch

/-- Whether the results of the fragments of a step are wanted. -/
def wants (batch : Batch) : Step → Bool
  | .call i request => batch.handlers[i]?.any fun handler => (batch.scene handler).wants request
  | _ => false

/-- The fragments that steps build, each one with whether its result was wanted. -/
def posted : Batch → List Step → List Posted
  | _, [] => []
  | batch, s :: steps =>
    postAll (batch.wants s) (batch.bridge.since (batch.step s).bridge) ++
      posted (batch.step s) steps

end Batch

/-! ## Delivery -/

/-- The scripts that posted fragments are sent in, after what was pending, and what is pending
then. -/
def deliver : String → List Posted → List String × String
  | pending, [] => ([], pending)
  | pending, p :: later =>
    if p.wanted then
      ((pending ++ p.fragment.line) :: (deliver "" later).1, (deliver "" later).2)
    else deliver (pending ++ p.fragment.line) later

theorem deliver_append (pending : String) (one two : List Posted) :
    deliver pending (one ++ two) =
      ((deliver pending one).1 ++ (deliver (deliver pending one).2 two).1,
        (deliver (deliver pending one).2 two).2) := by
  induction one generalizing pending with
  | nil => rfl
  | cons p one ih =>
    rw [List.cons_append, deliver, deliver]
    split
    · rw [ih]
      rfl
    · exact ih _

theorem postedText_append (one two : List Posted) :
    postedText (one ++ two) = postedText one ++ postedText two := by
  rw [postedText, List.map_append, batchText_append]
  rfl

theorem postedText_concat (batch : List Posted) (p : Posted) :
    postedText (batch ++ [p]) = postedText batch ++ p.fragment.line := by
  rw [postedText_append]
  exact congrArg _ (batchText_singleton p.fragment)

theorem postedText_eq_empty_iff (batch : List Posted) : postedText batch = "" ↔ batch = [] := by
  cases batch with
  | nil => exact iff_of_true rfl rfl
  | cons p batch =>
    exact iff_of_false (batchText_ne_empty p.fragment _) (List.cons_ne_nil p batch)

theorem isChain_of_unwanted {batch : List Posted} {p : Posted}
    (unwanted : ∀ q ∈ batch, q.wanted = false) :
    (batch ++ [p]).IsChain fun q _ => (!q.wanted) = true := by
  induction batch with
  | nil => exact List.isChain_singleton p
  | cons q batch ih =>
    rw [List.forall_mem_cons] at unwanted
    refine List.isChain_cons.mpr ⟨fun _ _ => ?_, ih unwanted.2⟩
    rw [unwanted.1]
    rfl

/-- Fragments that are pending together are one batch, which the next wanted result closes. -/
theorem cut_concat {batch : List Posted} (unwanted : ∀ q ∈ batch, q.wanted = false) (p : Posted) :
    cut (batch ++ [p]) = [batch ++ [p]] :=
  List.splitBy_of_isChain (by simp) (isChain_of_unwanted unwanted)

theorem cut_wanted {batch : List Posted} (unwanted : ∀ q ∈ batch, q.wanted = false) {p : Posted}
    (wanted : p.wanted = true) (posts : List Posted) :
    cut (batch ++ p :: posts) = (batch ++ [p]) :: cut posts := by
  have apart : cut ((batch ++ [p]) ++ posts) = cut (batch ++ [p]) ++ cut posts := by
    apply List.splitBy_append
    intro last isLast _ _
    rw [List.getLast?_concat, Option.mem_some_iff] at isLast
    rw [← isLast, wanted]
    rfl
  rw [List.append_cons, apart, cut_concat unwanted]
  rfl

/-- What is delivered and what is left over are the posted fragments, cut after those whose result
was wanted; the fragments that were pending before are the beginning of the first batch. -/
theorem deliver_cut (first posts : List Posted) (unwanted : ∀ p ∈ first, p.wanted = false) :
    let sent := deliver (postedText first) posts
    sent.1 ++ (if sent.2 = "" then [] else [sent.2]) = (cut (first ++ posts)).map postedText := by
  induction posts generalizing first with
  | nil =>
    rw [List.append_nil]
    dsimp only [deliver]
    cases first using List.reverseRecOn with
    | nil => rfl
    | append_singleton batch p =>
      rw [List.forall_mem_append] at unwanted
      rw [cut_concat unwanted.1, if_neg (by simp [postedText_eq_empty_iff])]
      rfl
  | cons p posts ih =>
    rw [deliver, ← postedText_concat]
    split
    · next wanted =>
      have rest := ih [] (fun _ h => absurd h List.not_mem_nil)
      rw [cut_wanted unwanted wanted, List.map_cons]
      exact congrArg (postedText (first ++ [p]) :: ·) rest
    · next kept =>
      rw [List.append_cons first p posts]
      refine ih (first ++ [p]) ?_
      intro q hq
      rcases List.mem_append.mp hq with hq | hq
      · exact unwanted q hq
      · rw [List.mem_singleton.mp hq]
        exact Bool.eq_false_iff.mpr kept

theorem exists_rel_of_mem_dropLast {α : Type} {R : α → α → Prop} {l : List α} (chain : l.IsChain R)
    {a : α} (ha : a ∈ l.dropLast) : ∃ b, R a b := by
  induction l with
  | nil => cases ha
  | cons b l ih =>
    cases l with
    | nil => cases ha
    | cons c l =>
      rw [List.isChain_cons_cons] at chain
      rcases List.mem_cons.mp ha with rfl | ha
      · exact ⟨c, chain.1⟩
      · exact ih chain.2 ha

/-- A fragment is followed by another one in its batch exactly if it is followed at all and its
result was not wanted. -/
theorem followed_in_cut_iff (posts : List Posted) (p : Posted) :
    (∃ batch ∈ cut posts, p ∈ batch.dropLast) ↔ p ∈ posts.dropLast ∧ p.wanted = false := by
  have flat : (cut posts).flatten = posts := List.flatten_splitBy ..
  have full : [] ∉ cut posts := List.nil_notMem_splitBy _ _
  have ended := List.isChain_getLast_head_splitBy (fun p _ => !p.wanted) posts
  rw [← cut] at ended
  have unwanted : ∀ batch ∈ cut posts, p ∈ batch.dropLast → p.wanted = false := by
    intro batch hbatch hp
    obtain ⟨_, kept⟩ := exists_rel_of_mem_dropLast (List.isChain_of_mem_splitBy hbatch) hp
    simpa using kept
  generalize cut posts = batches at flat full ended unwanted ⊢
  subst flat
  cases batches using List.reverseRecOn with
  | nil => simp
  | append_singleton batches last =>
    have full_last : last ≠ [] := by
      intro empty
      exact full (by simp [empty])
    rw [List.flatten_append, List.flatten_singleton, List.dropLast_append_of_ne_nil full_last,
      List.mem_append]
    constructor
    · rintro ⟨batch, hbatch, hp⟩
      refine ⟨?_, unwanted batch hbatch hp⟩
      rcases List.mem_append.mp hbatch with before | final
      · exact .inl (List.mem_flatten.mpr ⟨batch, before, List.dropLast_subset _ hp⟩)
      · exact .inr (List.mem_singleton.mp final ▸ hp)
    · rintro ⟨earlier | inside, kept⟩
      · obtain ⟨batch, hbatch, hp⟩ := List.mem_flatten.mp earlier
        refine ⟨batch, List.mem_append_left _ hbatch, ?_⟩
        -- a batch that is followed by another one ends with a fragment whose result was wanted
        obtain ⟨_, some_in, _, wanted⟩ := exists_rel_of_mem_dropLast ended
          (by rw [List.dropLast_concat]; exact hbatch)
        rw [← List.dropLast_concat_getLast some_in] at hp
        rcases List.mem_append.mp hp with inside | final
        · exact inside
        · rw [List.mem_singleton.mp final] at kept
          rw [kept] at wanted
          cases wanted
      · exact ⟨last, by simp, inside⟩

theorem cutsOff_cut_iff (posts : List Posted) :
    CutsOff (cut posts) ↔ ∃ p ∈ posts.dropLast, p.fragment.returns = true ∧ p.wanted = false := by
  have followed := followed_in_cut_iff posts
  constructor
  · rintro ⟨batch, hbatch, p, hp, returns⟩
    obtain ⟨later, unwanted⟩ := (followed p).mp ⟨batch, hbatch, hp⟩
    exact ⟨p, later, returns, unwanted⟩
  · rintro ⟨p, later, returns, unwanted⟩
    obtain ⟨batch, hbatch, hp⟩ := (followed p).mpr ⟨later, unwanted⟩
    exact ⟨batch, hbatch, p, hp, returns⟩

/-! ## One call -/

theorem postAll_append (wanted : Bool) (one two : List Entry) :
    postAll wanted (one ++ two) = postAll wanted one ++ postAll wanted two := by
  rw [postAll, fragments_append, List.map_append]
  rfl

theorem map_fragment_postAll (wanted : Bool) (history : List Entry) :
    (postAll wanted history).map Posted.fragment = fragments history := by
  rw [postAll, List.map_map]
  exact List.map_id _

/-- A call in a session: only the buffer of the session changes, and the fragments built are
delivered. -/
structure Delivers (wanted : Bool) (session : Session) (pending : String) (history : List Entry)
    (before after : Scene) : Prop where
  session_eq : after.session = some { session with script := pending }
  continued : before.bridge.Continues history after.bridge
  delivered : deliver session.script (postAll wanted history) = (scripts history, pending)

/-- Calls that ask for results, or for none, deliver their fragments, at once if the session does
not ignore results. -/
theorem steady_delivers (void : Bool) : Call.Steady (fun returns => returns.isVoid = void)
    fun before after => ∀ session, before.session = some session → ∃ pending history,
      Delivers (!(void || session.ignoresResults)) session pending history before after where
  refl scene session h := ⟨session.script, [], h, .refl _, rfl⟩
  trans := by
    intro one two three h₁ h₂ session h
    obtain ⟨middle, before, first⟩ := h₁ session h
    obtain ⟨pending, after, second⟩ := h₂ _ first.session_eq
    refine ⟨pending, before ++ after, second.session_eq, first.continued.trans second.continued, ?_⟩
    have then_delivered := second.delivered
    dsimp only at then_delivered
    rw [postAll_append, deliver_append, first.delivered, then_delivered, scripts_append]
  log scene level message session h :=
    ⟨session.script, _, h, scene.bridge.continues_log level message, rfl⟩
  remember scene c session h := ⟨session.script, [], h, .refl _, rfl⟩
  execute := by
    intro text returns isVoid scene session h
    have noted := scene.bridge.continues_note (.built (scene.fragment text))
    have added : session.script ++ (scene.fragment text).line =
        (session.add (scene.fragment text).wrapped).script := (String.append_assoc ..).symm
    rw [Call.run_execute_batched h, isVoid]
    dsimp only
    split
    · next kept =>
      refine ⟨(session.add (scene.fragment text).wrapped).script, _, rfl, noted, ?_⟩
      rw [kept, ← added]
      rfl
    · next wanted =>
      obtain ⟨history, ran, continued⟩ :=
        (scene.noted text).continues_flush (session.add (scene.fragment text).wrapped)
      obtain ⟨built, run⟩ := ran.of_built (scene.fragment text)
      refine ⟨"", _, rfl, noted.trans continued, ?_⟩
      rw [postAll, built, run, Bool.eq_false_iff.mpr wanted, ← added]
      rfl

theorem Request.delivers (request : Request) {scene : Scene} {session : Session}
    (h : scene.session = some session) : ∃ pending history,
      Delivers (scene.wants request) session pending history scene
        (request.call.run scene).2 := by
  have steady := steady_delivers (request.isVoid scene)
  have wants : scene.wants request = !(request.isVoid scene || session.ignoresResults) := by
    rw [Scene.wants, h, Option.any_some]
  rw [wants]
  cases request with
  | invoke method arguments =>
    rw [call, Call.run_discard]
    refine steady.invoke_at ?_ ?_ arguments session h
    · intro m declared kind
      simp [isVoid, declared, kind]
    · intro m declared kind interface
      simp [isVoid, declared, kind, ValueType.isVoid]
  | properties =>
    exact steady.bind (steady.properties rfl rfl) (fun _ => steady.closed.pure ()) scene session h
  | objectClass =>
    exact steady.bind (steady.objectClass rfl) (fun _ => steady.closed.pure ()) scene session h
  | isInstanceOf c =>
    exact steady.bind (steady.isInstanceOf rfl c) (fun _ => steady.closed.pure ()) scene session h

/-! ## Runs -/

namespace Batch

theorem step_delivers (batch : Batch) (s : Step) : ∃ history,
    batch.bridge.Continues history (batch.step s).bridge ∧
      deliver batch.session.script (postAll (batch.wants s) history) =
        (scripts history, (batch.step s).session.script) := by
  cases s with
  | call i request =>
    unfold step wants
    dsimp only
    cases batch.handlers[i]? with
    | none => exact ⟨[], .refl _, rfl⟩
    | some handler =>
      obtain ⟨pending, history, delivers⟩ :=
        request.delivers (show (batch.scene handler).session = some batch.session from rfl)
      refine ⟨history, delivers.continued, ?_⟩
      dsimp only [Option.any_some]
      rw [delivers.session_eq]
      exact delivers.delivered
  | limit handle seconds =>
    refine ⟨[], .refl _, ?_⟩
    dsimp only [step]
    rw [setTimeout_script]
    rfl
  | reduce _ _ => exact ⟨[], .refl _, rfl⟩
  | ignoreResults _ => exact ⟨[], .refl _, rfl⟩
  | compile _ => exact ⟨[], .refl _, rfl⟩
  | addAspect _ => exact ⟨[], .refl _, rfl⟩
  | removeAspect _ => exact ⟨[], .refl _, rfl⟩

theorem run_delivers (batch : Batch) (steps : List Step) : ∃ history,
    batch.bridge.Continues history (batch.run steps).bridge ∧
      (batch.posted steps).map Posted.fragment = fragments history ∧
      deliver batch.session.script (batch.posted steps) =
        (scripts history, (batch.run steps).session.script) := by
  induction steps generalizing batch with
  | nil => exact ⟨[], .refl _, rfl, rfl⟩
  | cons s steps ih =>
    obtain ⟨one, continued, first⟩ := batch.step_delivers s
    obtain ⟨two, continued', built, rest⟩ := ih (batch.step s)
    have posted : batch.posted (s :: steps) =
        postAll (batch.wants s) one ++ (batch.step s).posted steps := by
      rw [Batch.posted, continued.since_eq]
    refine ⟨one ++ two, continued.trans continued', ?_, ?_⟩
    · rw [posted, List.map_append, map_fragment_postAll, built, fragments_append]
    · rw [posted, deliver_append, first, rest, scripts_append]
      rfl

end Batch

/-- **The scripts of a session are its fragments, cut where a result was wanted.** This holds of
every run of a new session and its commit. So one of its scripts has a fragment that returns and
that another one follows exactly if such a fragment was built, not as the last one of the session,
while its result was not wanted. -/
theorem scripts_cut_at_results (b : Bridge) (handlers : List Handler) (steps : List Step) :
    let last := (Batch.start b handlers).run steps
    let posted := (Batch.start b handlers).posted steps
    posted.map Posted.fragment = fragments (b.since last.bridge) ∧
      scripts (b.since last.bridge) ++ scripts (last.bridge.since last.commit) =
        (cut posted).map postedText ∧
      (CutsOff (cut posted) ↔
        ∃ p ∈ posted.dropLast, p.fragment.returns = true ∧ p.wanted = false) := by
  intro last posted
  have started := b.continues_log .debug "Session started"
  have opened := Quiet.logged .debug "Session started"
  obtain ⟨history, continued, built, delivered⟩ := (Batch.start b handlers).run_delivers steps
  have since : b.since last.bridge = _ := (started.trans continued).since_eq
  obtain ⟨-, -, -, sent⟩ := Batch.session_stretch b handlers steps
  refine ⟨?_, ?_, cutsOff_cut_iff posted⟩
  · rw [since, fragments_append, opened.fragments_eq, List.nil_append]
    exact built
  · have cuts := deliver_cut [] posted fun _ h => absurd h List.not_mem_nil
    have from_empty : deliver (postedText []) posted = (scripts history, last.session.script) :=
      delivered
    dsimp only at cuts
    rw [from_empty, List.nil_append] at cuts
    rw [since, scripts_append, opened.scripts_eq, List.nil_append, sent, ← cuts]

namespace Radio

/-- An application with a name, that can be told to stop. -/
def dictionary : Dictionary where
  interface := "Radio"
  classes := [{
    interface := "Radio"
    name := some "application"
    methods := [
      { name := "get_name", kind := .property, scriptName := some "name", returns := .text },
      { name := "stop", kind := .command, scriptName := some "stop" }] }]

def bridge : Bridge :=
  ((Bridge.new (Config.default none) (.rehearsal [])).register dictionary "Radio").2

def handler : Handler where
  object := { interface := "Radio", reference := .root "application \"Radio\"" }
  reduces := true

/-- The radio is asked for its name and then stopped, in a session that ignores results. -/
def steps : List Step :=
  [.ignoreResults true, .call 0 (.invoke "get_name" []), .call 0 (.invoke "stop" [])]

def last : Batch := (Batch.start bridge [handler]).run steps

/-- The one script of the session returns the name, and does not come to stop the radio. -/
theorem name_cuts_off_stop :
    ∃ naming stopping : Fragment, naming.text = "return name" ∧ naming.returns = true ∧
      stopping.text = "stop" ∧ fragments (bridge.since last.bridge) = [naming, stopping] ∧
      scripts (bridge.since last.bridge) ++ scripts (last.bridge.since last.commit) =
        [batchText [naming, stopping]] :=
  ⟨{ text := "return name", application := some "application \"Radio\"",
     globals := Aspect.defaults, session := some [] },
   { text := "stop", application := some "application \"Radio\"",
     globals := Aspect.defaults, session := some [] },
   rfl, by decide, rfl, rfl, rfl⟩

end Radio

end ScriptBridge
