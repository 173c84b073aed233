import ScriptBridge.Proofs.Bridge.Calls
/-!
Fragments that calls build in a session are sent once, and in the order in which they were built.

`Collects pending history rest` reads a history as the life of a session's buffer: a fragment that
is built goes to its end, and a script that is run is the whole buffer, which is not empty then and
is empty afterwards. Every call that is made in a session leaves such a history
(`steady_collected`), so a whole run of calls does (`Batch.run_stretch`), and from there it is a
statement about histories that the scripts are the fragments in consecutive batches
(`Collects.batches`).
-/
namespace ScriptBridge

open History

/-- A fragment as it stands in a script of several. -/
def Fragment.line (f : Fragment) : String := f.wrapped ++ "\n"

/-- The script of fragments that are sent together. -/
def batchText (batch : List Fragment) : String := String.join (batch.map Fragment.line)

theorem batchText_append (one two : List Fragment) :
    batchText (one ++ two) = batchText one ++ batchText two := by
  rw [batchText, List.map_append, String.join_append]
  rfl

theorem batchText_singleton (f : Fragment) : batchText [f] = f.line := by
  rw [batchText, List.map_singleton, String.join_cons, String.join_nil, String.append_empty]

theorem batchText_ne_empty (f : Fragment) (batch : List Fragment) :
    batchText (f :: batch) ≠ "" := by
  intro h
  rw [batchText, List.map_cons, String.join_cons] at h
  have line := (String.append_eq_empty_iff.mp h).1
  exact absurd (String.append_eq_empty_iff.mp line).2 (by decide)

/-! ## The life of a buffer -/

/-- What is pending before and after a history. -/
inductive Collects : String → List Entry → String → Prop
  | nil (pending : String) : Collects pending [] pending
  | built {pending rest : String} {history : List Entry} (f : Fragment)
      (h : Collects (pending ++ f.line) history rest) : Collects pending (.built f :: history) rest
  | ran {pending rest : String} {history : List Entry} (compiled : Bool)
      (result : Except ExecutionError String) (hne : pending ≠ "") (h : Collects "" history rest) :
      Collects pending (.ran pending compiled result :: history) rest
  | remark {pending rest : String} {history : List Entry} {entry : Entry}
      (quiet : entry.fragment? = none ∧ entry.script? = none) (h : Collects pending history rest) :
      Collects pending (entry :: history) rest

namespace Collects

theorem trans {one two three : String} {before after : List Entry} (h₁ : Collects one before two)
    (h₂ : Collects two after three) : Collects one (before ++ after) three := by
  induction h₁ with
  | nil => exact h₂
  | built f _ ih => exact .built f (ih h₂)
  | ran compiled result hne _ ih => exact .ran compiled result hne (ih h₂)
  | remark quiet _ ih => exact .remark quiet (ih h₂)

theorem of_quiet {history : List Entry} (h : Quiet history) (pending : String) :
    Collects pending history pending := by
  induction history with
  | nil => exact .nil pending
  | cons entry history ih =>
    exact .remark (h entry List.mem_cons_self) (ih fun e he => h e (List.mem_cons_of_mem _ he))

theorem of_isRun {pending : String} {history : List Entry} (h : IsRun pending history)
    (hne : pending ≠ "") : Collects pending history "" := by
  obtain ⟨before, after, compiled, result, hb, ha, rfl⟩ := h
  exact (of_quiet hb pending).trans (.ran compiled result hne (of_quiet ha ""))

theorem sent {pending rest : String} {history : List Entry} (h : Collects pending history rest) :
    pending ++ batchText (fragments history) = String.join (scripts history) ++ rest := by
  induction h with
  | nil pending => exact String.append_empty.trans String.empty_append.symm
  | @built pending rest history f _ ih =>
    rw [show fragments (.built f :: history) = [f] ++ fragments history from rfl,
      batchText_append, batchText_singleton, ← String.append_assoc, ih]
    rfl
  | @ran pending rest history compiled result _ _ ih =>
    rw [String.empty_append] at ih
    rw [show scripts (.ran pending compiled result :: history) = pending :: scripts history
      from rfl, String.join_cons, String.append_assoc, ← ih]
    rfl
  | @remark pending rest history entry quiet _ ih =>
    rw [fragments, scripts, List.filterMap_cons, List.filterMap_cons, quiet.1, quiet.2]
    exact ih

/-- The fragments of a history, after those that were pending before it, are sent in consecutive
batches; those that are left over are pending. -/
theorem batches {pending rest : String} {history : List Entry} (h : Collects pending history rest)
    (first : List Fragment) (hf : pending = batchText first) :
    ∃ (batches : List (List Fragment)) (last : List Fragment),
      batches.flatten ++ last = first ++ fragments history ∧
        scripts history = batches.map batchText ∧ rest = batchText last ∧ [] ∉ batches := by
  -- `first` is the batch in the making: a fragment makes it longer, a script closes it.
  induction h generalizing first with
  | nil pending => exact ⟨[], first, by simp [fragments], rfl, hf, List.not_mem_nil⟩
  | @built pending rest history f _ ih =>
    have longer : pending ++ f.line = batchText (first ++ [f]) := by
      rw [batchText_append, batchText_singleton, hf]
    obtain ⟨batches, last, flat, sent, left, full⟩ := ih (first ++ [f]) longer
    refine ⟨batches, last, ?_, sent, left, full⟩
    rw [flat, List.append_assoc]
    rfl
  | @ran pending rest history compiled result hne _ ih =>
    obtain ⟨batches, last, flat, sent, left, full⟩ := ih [] rfl
    refine ⟨first :: batches, last, ?_, ?_, left, ?_⟩
    · rw [List.flatten_cons, List.append_assoc, flat]
      rfl
    · rw [List.map_cons, ← hf, ← sent]
      rfl
    · intro empty
      rcases List.mem_cons.mp empty with rfl | empty
      · exact hne hf
      · exact full empty
  | @remark pending rest history entry quiet _ ih =>
    obtain ⟨batches, last, flat, sent, left, full⟩ := ih first hf
    refine ⟨batches, last, ?_, ?_, left, full⟩
    · rw [flat, fragments, fragments, List.filterMap_cons, quiet.1]
    · rw [← sent, scripts, scripts, List.filterMap_cons, quiet.2]

end Collects

/-! ## One call -/

/-- A call in a session: only the buffer of the session changes, the history is the life of the
buffer, and the fragments built have the aspects of the bridge and of the session. -/
structure Collected (session : Session) (pending : String) (history : List Entry)
    (before after : Scene) : Prop where
  session_eq : after.session = some { session with script := pending }
  continued : before.bridge.Continues history after.bridge
  collects : Collects session.script history pending
  aspects : ∀ f ∈ fragments history,
    f.globals = before.bridge.aspectList ∧ f.session = some session.aspectList

theorem steady_collected : Call.Steady (fun _ => True) fun before after => ∀ session,
    before.session = some session → ∃ pending history,
      Collected session pending history before after where
  refl scene session h :=
    ⟨session.script, [], h, .refl _, .nil _, fun _ hf => absurd hf List.not_mem_nil⟩
  trans := by
    intro one two three h₁ h₂ session h
    obtain ⟨middle, before, first⟩ := h₁ session h
    obtain ⟨pending, after, second⟩ := h₂ _ first.session_eq
    refine ⟨pending, before ++ after, second.session_eq, first.continued.trans second.continued,
      first.collects.trans second.collects, fun f hf => ?_⟩
    rw [fragments_append] at hf
    rcases List.mem_append.mp hf with hf | hf
    · exact first.aspects f hf
    · rw [← first.continued.aspectList_eq]
      exact second.aspects f hf
  log scene level message session h :=
    ⟨session.script, _, h, scene.bridge.continues_log level message,
      .of_quiet (.logged level message) _, fun _ hf => absurd hf List.not_mem_nil⟩
  remember scene c session h :=
    ⟨session.script, [], h, .refl _, .nil _, fun _ hf => absurd hf List.not_mem_nil⟩
  execute := by
    intro text returns _ scene session h
    have noted := scene.bridge.continues_note (.built (scene.fragment text))
    have collects : Collects session.script [.built (scene.fragment text)]
        (session.add (scene.fragment text).wrapped).script := by
      refine .built _ ?_
      rw [Fragment.line, ← String.append_assoc]
      exact .nil _
    have aspects : ∀ f ∈ [scene.fragment text],
        f.globals = scene.bridge.aspectList ∧ f.session = some session.aspectList := by
      intro f hf
      rw [List.mem_singleton.mp hf, Scene.fragment, h]
      exact ⟨rfl, rfl⟩
    -- The fragment is pending in either case; if a result is wanted, the buffer is sent as well.
    rw [Call.run_execute_batched h]
    dsimp only
    split
    · exact ⟨_, _, rfl, noted, collects, aspects⟩
    · have pending : (session.add (scene.fragment text).wrapped).script ≠ "" := by
        intro empty
        exact absurd (String.append_eq_empty_iff.mp empty).2 (by decide)
      obtain ⟨history, ran, continued⟩ :=
        (scene.noted text).continues_flush (session.add (scene.fragment text).wrapped)
      refine ⟨"", _, rfl, noted.trans continued, collects.trans (.of_isRun ran pending), ?_⟩
      rw [fragments_append, ran.fragments_eq, List.append_nil]
      exact aspects

/-! ## Runs of calls -/

/-- What can be asked of a handler. -/
inductive Request where
  | invoke (method : String) (arguments : List Value)
  | properties
  | objectClass
  | isInstanceOf (c : TypeClass)

/-- The call that a request makes. -/
def Request.call : Request → Call Unit
  | invoke method arguments => do discard (Call.invoke method arguments)
  | properties => do discard Call.properties
  | objectClass => do discard Call.objectClass
  | isInstanceOf c => do discard (Call.isInstanceOf c)

theorem Request.keeps {R : Scene → Scene → Prop} (h : Call.Steady (fun _ => True) R)
    (request : Request) : Call.Keeps R request.call := by
  cases request with
  | invoke method arguments =>
    exact h.bind (h.invoke (fun _ => trivial) method arguments) fun _ => h.closed.pure ()
  | properties => exact h.bind (h.properties trivial trivial) fun _ => h.closed.pure ()
  | objectClass => exact h.bind (h.objectClass trivial) fun _ => h.closed.pure ()
  | isInstanceOf c => exact h.bind (h.isInstanceOf trivial c) fun _ => h.closed.pure ()

/-- A session in use, with the handlers that make calls in it. -/
structure Batch where
  bridge : Bridge
  session : Session
  handlers : List Handler

/-- What may be done with a session in use: calls of its handlers, and changes of its settings. -/
inductive Step where
  | call (handler : Nat) (request : Request)
  | reduce (handler : Nat) (reduces : Bool)
  | ignoreResults (ignores : Bool)
  | compile (compiles : Bool)
  | limit (handle : Nat) (seconds : Int32)
  | addAspect (aspect : Installed Aspect)
  | removeAspect (handle : Nat)

namespace Batch

/-- A new session. -/
def start (b : Bridge) (handlers : List Handler) : Batch :=
  { bridge := b.startSession.2, session := b.startSession.1, handlers }

/-- What a call of a handler sees. -/
def scene (batch : Batch) (handler : Handler) : Scene :=
  { bridge := batch.bridge, session := some batch.session, handler }

/-- One step; of a handler that is not there it does nothing. -/
def step (batch : Batch) : Step → Batch
  | .call i request =>
    match batch.handlers[i]? with
    | none => batch
    | some handler =>
      let after := (request.call.run (batch.scene handler)).2
      { bridge := after.bridge, session := after.session.getD batch.session,
        handlers := batch.handlers.set i after.handler }
  | .reduce i reduces =>
    { batch with handlers := batch.handlers.modify i fun h => { h with reduces } }
  | .ignoreResults ignores =>
    { batch with session := { batch.session with ignoresResults := ignores } }
  | .compile compiles => { batch with session := { batch.session with compiles } }
  | .limit handle seconds => { batch with session := batch.session.setTimeout handle seconds }
  | .addAspect aspect => { batch with session := batch.session.addAspect aspect }
  | .removeAspect handle => { batch with session := (batch.session.removeAspect handle).2 }

/-- Steps one after another. -/
def run (batch : Batch) (steps : List Step) : Batch := steps.foldl step batch

/-- The bridge after what is pending has been sent. -/
def commit (batch : Batch) : Bridge := (batch.bridge.commitSession batch.session).2

theorem setTimeout_script (handle : Nat) (seconds : Int32) (s : Session) :
    (s.setTimeout handle seconds).script = s.script := by
  unfold Session.setTimeout
  dsimp only
  split <;> rfl

/-- A stretch of a run: a history that is the life of the session's buffer, with the fragments built
under the same global aspects. -/
structure Stretch (before after : Batch) (history : List Entry) : Prop where
  continued : before.bridge.Continues history after.bridge
  collects : Collects before.session.script history after.session.script
  aspects : ∀ f ∈ fragments history, f.globals = before.bridge.aspectList

theorem Stretch.quiet {before after : Batch} (hb : after.bridge = before.bridge)
    (hs : after.session.script = before.session.script) : Stretch before after [] where
  continued := hb ▸ .refl _
  collects := hs ▸ .nil _
  aspects := fun _ hf => absurd hf List.not_mem_nil

theorem Stretch.trans {one two three : Batch} {before after : List Entry}
    (h₁ : Stretch one two before) (h₂ : Stretch two three after) :
    Stretch one three (before ++ after) where
  continued := h₁.continued.trans h₂.continued
  collects := h₁.collects.trans h₂.collects
  aspects := by
    intro f hf
    rw [fragments_append] at hf
    rcases List.mem_append.mp hf with hf | hf
    · exact h₁.aspects f hf
    · rw [← h₁.continued.aspectList_eq]
      exact h₂.aspects f hf

theorem step_stretch (batch : Batch) (s : Step) :
    ∃ history, Stretch batch (batch.step s) history := by
  cases s with
  | call i request =>
    unfold step
    dsimp only
    split
    · exact ⟨[], .quiet rfl rfl⟩
    · next handler _ =>
      obtain ⟨pending, history, collected⟩ :=
        request.keeps steady_collected (batch.scene handler) batch.session rfl
      refine ⟨history, collected.continued, ?_, fun f hf => (collected.aspects f hf).1⟩
      rw [collected.session_eq]
      exact collected.collects
  | limit handle seconds => exact ⟨[], .quiet rfl (setTimeout_script _ _ _)⟩
  | reduce _ _ => exact ⟨[], .quiet rfl rfl⟩
  | ignoreResults _ => exact ⟨[], .quiet rfl rfl⟩
  | compile _ => exact ⟨[], .quiet rfl rfl⟩
  | addAspect _ => exact ⟨[], .quiet rfl rfl⟩
  | removeAspect _ => exact ⟨[], .quiet rfl rfl⟩

theorem run_stretch (batch : Batch) (steps : List Step) :
    ∃ history, Stretch batch (batch.run steps) history := by
  induction steps generalizing batch with
  | nil => exact ⟨[], .quiet rfl rfl⟩
  | cons s steps ih =>
    obtain ⟨one, first⟩ := batch.step_stretch s
    obtain ⟨two, rest⟩ := ih (batch.step s)
    exact ⟨one ++ two, first.trans rest⟩

theorem session_stretch (b : Bridge) (handlers : List Handler) (steps : List Step) :
    let last := (start b handlers).run steps
    Collects "" (b.since last.bridge) last.session.script ∧
      (∀ f ∈ fragments (b.since last.bridge), f.globals = b.aspectList) ∧
      fragments (last.bridge.since last.commit) = [] ∧
      scripts (last.bridge.since last.commit) =
        if last.session.script = "" then [] else [last.session.script] := by
  intro last
  have started := b.continues_log .debug "Session started"
  obtain ⟨history, stretch⟩ := run_stretch (start b handlers) steps
  have opened := Quiet.logged .debug "Session started"
  have since : b.since last.bridge = _ := (started.trans stretch.continued).since_eq
  obtain ⟨rest, committed, sent⟩ := last.bridge.continues_commit last.session
  have final : last.bridge.since last.commit = rest := committed.since_eq
  rw [since, final, fragments_append, opened.fragments_eq]
  refine ⟨(Collects.of_quiet opened "").trans stretch.collects, stretch.aspects, ?_, ?_⟩
  · split at sent
    · rw [sent]; rfl
    · exact sent.fragments_eq
  · split at sent
    · rw [if_pos ‹_›, sent]; rfl
    · rw [if_neg ‹_›, sent.scripts_eq]

/-- The scripts of a session, that of its commit included, are its fragments in consecutive
batches. -/
theorem sent_in_batches (b : Bridge) (handlers : List Handler) (steps : List Step) :
    let last := (start b handlers).run steps
    ∃ batches : List (List Fragment), [] ∉ batches ∧
      batches.flatten = fragments (b.since last.bridge) ∧
      scripts (b.since last.bridge) ++ scripts (last.bridge.since last.commit) =
        batches.map batchText := by
  intro last
  obtain ⟨collects, -, -, sent⟩ := session_stretch b handlers steps
  obtain ⟨batches, left, flat, texts, pending, full⟩ := collects.batches [] rfl
  rw [List.nil_append] at flat
  -- The commit sends what is left over, which makes one more batch unless nothing is.
  cases left with
  | nil =>
    have none_left : last.session.script = "" := pending
    refine ⟨batches, full, ?_, ?_⟩
    · rw [← flat, List.append_nil]
    · rw [sent, if_pos none_left, List.append_nil, texts]
  | cons f left =>
    have some_left : last.session.script ≠ "" := fun h =>
      batchText_ne_empty f left (pending.symm.trans h)
    refine ⟨batches ++ [f :: left], ?_, ?_, ?_⟩
    · rw [List.mem_append, List.mem_singleton]
      exact fun h => h.elim full (List.cons_ne_nil f left ∘ Eq.symm)
    · rw [List.flatten_append, List.flatten_singleton, flat]
    · rw [sent, if_neg some_left, texts, List.map_append, List.map_singleton, ← pending]

end Batch

/-- **Every fragment is sent once, in the order of the calls.** At any point of a session the
scripts that were sent, followed by what is pending, are the fragments that the calls built, each
one with its aspects around it and a line feed. Committing the session sends what is pending and
nothing else, so that the scripts are the fragments in consecutive batches. -/
theorem fragments_sent_once (b : Bridge) (handlers : List Handler) (steps : List Step) :
    let last := (Batch.start b handlers).run steps
    let history := b.since last.bridge
    let rest := last.bridge.since last.commit
    String.join (scripts history) ++ last.session.script =
        String.join ((fragments history).map fun f => f.wrapped ++ "\n") ∧
      (∀ f ∈ fragments history, f.globals = b.aspectList) ∧
      scripts rest = (if last.session.script = "" then [] else [last.session.script]) ∧
      fragments rest = [] ∧
      ∃ batches : List (List Fragment), [] ∉ batches ∧ batches.flatten = fragments history ∧
        scripts history ++ scripts rest = batches.map batchText := by
  intro last history rest
  obtain ⟨collects, aspects, quiet, sent⟩ := Batch.session_stretch b handlers steps
  refine ⟨?_, aspects, sent, quiet, Batch.sent_in_batches b handlers steps⟩
  calc String.join (scripts history) ++ last.session.script
      = "" ++ batchText (fragments history) := collects.sent.symm
    _ = batchText (fragments history) := String.empty_append

namespace Kettle

/-- An application with a state, that can be told to fill and to boil. -/
def dictionary : Dictionary where
  interface := "Kettle"
  classes := [{
    interface := "Kettle"
    methods := [
      { name := "get_state", kind := .property, scriptName := some "state", returns := .text },
      { name := "fill", kind := .command, scriptName := some "fill" },
      { name := "boil", kind := .command, scriptName := some "boil" }] }]

def bridge : Bridge :=
  ((Bridge.new (Config.default none) (.rehearsal [])).register dictionary "Kettle").2

def handler : Handler where
  object := { interface := "Kettle", reference := .root "application \"Kettle\"" }
  reduces := true

/-- The kettle is filled and asked for its state, and then told to boil and asked again while
results are ignored. -/
def steps : List Step :=
  [.call 0 (.invoke "fill" []), .call 0 (.invoke "get_state" []), .ignoreResults true,
    .call 0 (.invoke "boil" []), .call 0 (.invoke "get_state" [])]

def last : Batch := (Batch.start bridge [handler]).run steps

/-- A fragment for the kettle, as it is sent. -/
def sent (text : String) : String :=
  "tell application \"Kettle\"\r\n  " ++ text ++ "\r\nend tell\r\n\n"

/-- Four fragments are built. The first question sends what is pending; the second one is ignored
and waits for the commit. -/
theorem sent_twice :
    (fragments (bridge.since last.bridge)).map (·.text) =
        ["fill", "return state", "boil", "return state"] ∧
      scripts (bridge.since last.bridge) = [sent "fill" ++ sent "return state"] ∧
      scripts (last.bridge.since last.commit) = [sent "boil" ++ sent "return state"] := by
  obtain ⟨-, -, rest, -⟩ := fragments_sent_once bridge [handler] steps
  have pending : last.session.script = sent "boil" ++ sent "return state" := by decide +kernel
  refine ⟨by decide +kernel, by decide +kernel, rest.trans ?_⟩
  change (if last.session.script = "" then [] else [last.session.script]) = _
  rw [pending, if_neg (by decide +kernel)]

end Kettle

end ScriptBridge
