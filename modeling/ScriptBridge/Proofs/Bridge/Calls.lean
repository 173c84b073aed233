import ScriptBridge.Bridge.Call
import ScriptBridge.Proofs.Bridge.Journal
import ScriptBridge.Proofs.Dictionary.Classes
/-!
What calls do to their scene.

The first part says what each operation that calls are made of gives and what it leaves; the main
one is `Call.execute`, without a session (`run_execute_alone`) and in one (`run_execute_batched`).

The second part follows calls through everything they are made of, once for all that is to be said
of them. A property is `Closed` if it holds of reading the scene and of logging, and is kept by
composition; it then holds of all preparations of a call. Together with what holds of executing a
fragment it gives what holds of the methods of each kind (`Prepared`).

A relation between the scenes before and after is `Steady` if it is reflexive and transitive and
holds of logging, of remembering the class of the object, and of executing a fragment for a result
of the wanted types. If all types are wanted, it holds of every call, whatever its method and its
arguments are and wherever it fails (`Steady.invoke`, `Steady.objectClass`, `Steady.isInstanceOf`,
`Steady.properties`), so a property of all calls is proved by looking at `execute` alone.
-/
namespace ScriptBridge

/-- The bridge of a scene after it has noted that a fragment was built. -/
def Scene.noted (scene : Scene) (text : String) : Bridge :=
  scene.bridge.note (.built (scene.fragment text))

/-- What an answer to a fragment of a scene is read as. -/
def Scene.read (scene : Scene) (returns : ValueType) (answer : String) : Except ScriptError Value :=
  scene.bridge.decode returns { object := some answer, application := scene.handler.application }

theorem Bridge.Continues.fragment_eq {before after : Bridge} {history : List Entry}
    (h : before.Continues history after) (session : Option Session) (handler : Handler) :
    Scene.fragment ⟨after, session, handler⟩ = Scene.fragment ⟨before, session, handler⟩ := by
  funext text
  rw [Scene.fragment, Scene.fragment, h.aspectList_eq]

/-- The method that a handler's interface declares under a name. -/
def Scene.method? (scene : Scene) (method : String) : Option Method :=
  (scene.bridge.applications.resolve? scene.handler.application scene.handler.object.interface).bind
    (·.method? scene.handler.object.interface method)

/-- The application answers a fragment that is run by itself. -/
def Scene.Answers (scene : Scene) (text answer : String) : Prop :=
  (scene.bridge.executor.run (scene.fragment text).wrapped false).1 = .ok answer

namespace Call

open History

/-! ## Running -/

theorem run_bind {α β : Type} (x : Call α) (f : α → Call β) (scene : Scene) :
    (x >>= f).run scene =
      match x.run scene with
      | (.ok a, after) => (f a).run after
      | (.error e, after) => (.error e, after) := by
  rw [ExceptT.run_bind]
  simp only [bind, StateT.bind]
  rcases x.run scene with ⟨_ | _, _⟩ <;> rfl

theorem run_bind_ok {α β : Type} {x : Call α} {scene after : Scene} {a : α}
    (h : x.run scene = (.ok a, after)) (f : α → Call β) :
    (x >>= f).run scene = (f a).run after := by
  rw [run_bind, h]

theorem run_discard {α : Type} (x : Call α) (scene : Scene) :
    (discard x).run scene = ((x.run scene).1.map fun _ => (), (x.run scene).2) := by
  show (x >>= fun _ => pure ()).run scene = _
  rw [run_bind]
  cases x.run scene with
  | mk result after => cases result <;> rfl

section
variable (scene : Scene)

@[simp] theorem run_pure {α : Type} (a : α) : (pure a : Call α).run scene = (.ok a, scene) := rfl

@[simp] theorem run_throw {α : Type} (e : ScriptError) :
    (throw e : Call α).run scene = (.error e, scene) := rfl

@[simp] theorem run_get : (get : Call Scene).run scene = (.ok scene, scene) := rfl

@[simp] theorem run_modify (f : Scene → Scene) :
    (modify f : Call Unit).run scene = (.ok (), f scene) := rfl

@[simp] theorem run_handler : handler.run scene = (.ok scene.handler, scene) := rfl

@[simp] theorem run_bridge : bridge.run scene = (.ok scene.bridge, scene) := rfl

@[simp] theorem run_changeBridge (change : Bridge → Bridge) :
    (changeBridge change).run scene = (.ok (), { scene with bridge := change scene.bridge }) := rfl

@[simp] theorem run_warn (message : String) :
    (warn message).run scene =
      (.ok (), { scene with bridge := scene.bridge.log .warning message }) := rfl

@[simp] theorem run_ofExcept {α : Type} (result : Except ScriptError α) :
    (ofExcept result).run scene = (result, scene) := by
  cases result <;> rfl

@[simp] theorem run_decode (target : ValueType) (reference : Reference) :
    (decode target reference).run scene = (scene.bridge.decode target reference, scene) := by
  simp only [decode, run_bind, run_bridge, run_ofExcept]

@[simp] theorem run_encode (value : Value) :
    (encode value).run scene = (scene.bridge.encode value, scene) := by
  simp only [encode, run_bind, run_bridge, run_ofExcept]

@[simp] theorem run_intern (c : TypeClass) :
    (intern c).run scene =
      (.ok (scene.bridge.internTypeClass c), { scene with bridge := (scene.bridge.intern c).2 }) :=
  rfl

theorem run_runNow (script : String) :
    (runNow script).run scene =
      ((scene.bridge.run script false).1.mapError .execution,
        { scene with bridge := (scene.bridge.run script false).2 }) := by
  simp only [runNow, run_bind, run_bridge, run_changeBridge, run_ofExcept]

theorem run_flush (session : Session) :
    (flush session).run scene =
      ((scene.bridge.flushSession session).1,
        { scene with bridge := (scene.bridge.flushSession session).2.2,
                     session := some { session with script := "" } }) := by
  simp only [flush, run_bind, run_bridge, run_modify, run_ofExcept]
  rfl

end

theorem run_intern_spelled {scene : Scene} {d : Dictionary} {application : String} {c : ClassEntry}
    {above : List ClassEntry} {other : TypeClass}
    (hb : scene.bridge.applications.Holds d application) (hd : d.Unambiguous) (hc : c ∈ d.classes)
    (lineage : d.Lineage c above) (ho : c.Spells other.label)
    (happ : other.label.application = some application) :
    (intern other).run scene = (.ok (d.typeClass application c above), scene) := by
  have interned := Bridge.intern_spelled hb hd hc lineage ho happ
  have declared : scene.bridge.internTypeClass other = d.typeClass application c above :=
    congrArg Prod.fst interned
  rw [run_intern, interned, declared]

/-- Without a session a fragment is wrapped and run at once. -/
theorem run_execute_alone {scene : Scene} (h : scene.session = none) (text : String)
    (returns : ValueType) :
    (execute text returns).run scene =
      ((((scene.noted text).run (scene.fragment text).wrapped false).1.mapError .execution).bind
          fun result => if returns.isVoid then .ok .null else scene.read returns result,
        { scene with
          bridge := ((scene.noted text).run (scene.fragment text).wrapped false).2 }) := by
  obtain ⟨history, -, continued⟩ :=
    (scene.noted text).continues_run (scene.fragment text).wrapped false
  simp only [execute, run_bind, run_get, run_changeBridge, h, run_runNow]
  rw [← Scene.noted]
  cases ran : (scene.noted text).run (scene.fragment text).wrapped false with
  | mk answer b =>
    rw [ran] at continued
    have same : b.decode = scene.bridge.decode := continued.decode_eq
    cases answer with
    | error e => rfl
    | ok result =>
      dsimp only [Except.mapError, Except.bind, Scene.read]
      cases returns.isVoid with
      | true => rfl
      | false => rw [if_neg Bool.false_ne_true, run_decode, same]; rfl

/-- Executing a fragment that is answered runs one script, and reads the answer. -/
theorem run_execute_answered {scene : Scene} {text answer : String} (alone : scene.session = none)
    (answered : scene.Answers text answer) {returns : ValueType} (result : returns.isVoid = false) :
    ∃ b history, (execute text returns).run scene =
        (scene.read returns answer, { scene with bridge := b }) ∧
      scene.bridge.Continues history b ∧ scripts history = [(scene.fragment text).wrapped] := by
  obtain ⟨history, ran, continued⟩ :=
    (scene.noted text).continues_run (scene.fragment text).wrapped false
  refine ⟨_, _, ?_, (scene.bridge.continues_note _).trans continued, ran.scripts_eq⟩
  rw [run_execute_alone alone, Bridge.run_fst,
    show (scene.noted text).executor = scene.bridge.executor from rfl, answered]
  simp only [Except.mapError, Except.bind, result, Bool.false_eq_true, if_false]

/-- In a session a fragment is wrapped and added to what is pending, and all of that is run if a
result is wanted. -/
theorem run_execute_batched {scene : Scene} {session : Session} (h : scene.session = some session)
    (text : String) (returns : ValueType) :
    (execute text returns).run scene =
      let pending := session.add (scene.fragment text).wrapped
      if returns.isVoid || session.ignoresResults then
        (.ok .null, { scene with bridge := scene.noted text, session := some pending })
      else
        (((scene.noted text).flushSession pending).1.bind (scene.read returns),
          { scene with
            bridge := ((scene.noted text).flushSession pending).2.2,
            session := some { session with script := "" } }) := by
  obtain ⟨history, -, continued⟩ :=
    (scene.noted text).continues_flush (session.add (scene.fragment text).wrapped)
  simp only [execute, run_bind, run_get, run_changeBridge, h, run_modify]
  rw [← Scene.noted, show (session.add (scene.fragment text).wrapped).ignoresResults =
    session.ignoresResults from rfl]
  cases returns.isVoid || session.ignoresResults with
  | true => rfl
  | false =>
    simp only [Bool.false_eq_true, if_false, run_bind, run_flush]
    cases flushed : (scene.noted text).flushSession (session.add (scene.fragment text).wrapped) with
    | mk answer rest =>
      rw [flushed] at continued
      -- The answer is decoded by the bridge that the flush leaves, which reads as before.
      have same : rest.2.decode = scene.bridge.decode := continued.decode_eq
      cases answer with
      | error e => rfl
      | ok result =>
        dsimp only [Except.bind, Scene.read]
        rw [run_decode, same]
        rfl

/-! ## Closed properties -/

/-- A property of calls that holds of reading the scene and of logging, and of what is composed of
calls that have it. -/
structure Closed (P : ∀ {α : Type}, Call α → Prop) : Prop where
  pure : ∀ {α : Type} (a : α), P (Pure.pure a : Call α)
  throw : ∀ {α : Type} (e : ScriptError), P (MonadExcept.throw e : Call α)
  bind : ∀ {α β : Type} {x : Call α} {f : α → Call β}, P x → (∀ a, P (f a)) → P (x >>= f)
  handler : P Call.handler
  bridge : P Call.bridge
  log : ∀ level message, P (changeBridge (·.log level message))

theorem intern_eq (c : TypeClass) :
    intern c = bridge >>= fun b =>
      (match b.internWarning? c with
        | some message => warn message
        | none => pure ()) >>= fun _ => pure (b.internTypeClass c) := by
  refine ExceptT.ext (funext fun scene => ?_)
  refine (run_intern scene c).trans ?_
  rw [Bridge.intern]
  refine Eq.trans ?_ (run_bind_ok (run_bridge scene) _).symm
  cases scene.bridge.internWarning? c <;> rfl

namespace Closed

variable {P : ∀ {α : Type}, Call α → Prop} (h : Closed P)
include h

theorem ofExcept {α : Type} (result : Except ScriptError α) : P (ofExcept result) := by
  cases result with
  | ok a => exact h.pure a
  | error e => exact h.throw e

theorem warn (message : String) : P (warn message) := h.log .warning message

theorem decode (target : ValueType) (reference : Reference) : P (decode target reference) :=
  h.bind h.bridge fun _ => h.ofExcept _

theorem encode (value : Value) : P (encode value) := h.bind h.bridge fun _ => h.ofExcept _

theorem intern (c : TypeClass) : P (intern c) := by
  rw [intern_eq]
  refine h.bind h.bridge fun b => ?_
  split
  · exact h.bind (h.log _ _) fun _ => h.pure _
  · exact h.bind (h.pure _) fun _ => h.pure _

theorem misuse {α : Type} (m : Method) (fault : ArgumentFault) : P (misuse m fault : Call α) :=
  h.throw _

theorem model : P model := by
  refine h.bind h.handler fun handler => h.bind h.bridge fun b => ?_
  cases b.applications.resolve? handler.application handler.object.interface with
  | none => exact h.throw _
  | some m => exact h.pure m

theorem scriptName (m : Method) : P (scriptName m) := by
  unfold Call.scriptName
  split
  · exact h.pure _
  · exact h.throw _

theorem scriptType (m : Method) : P (scriptType m) := by
  unfold Call.scriptType
  split
  · exact h.pure _
  · exact h.throw _

theorem plural (md : Model) (element : ValueType) (m : Method) : P (plural md element m) := by
  unfold Call.plural
  split
  · exact h.pure _
  · exact h.bind (h.warn _) fun _ => h.pure _

theorem whereClause (m : Method) (filter : Option Value) : P (whereClause m filter) := by
  unfold Call.whereClause
  split
  · exact h.pure _
  · exact h.pure _
  · exact h.pure _
  · exact h.misuse _ _

theorem itemNumber (m : Method) (argument : Option Value) : P (itemNumber m argument) := by
  unfold Call.itemNumber
  split
  · exact h.misuse _ _
  · split
    · exact h.throw _
    · exact h.pure _

theorem countedGetter (md : Model) (interface : String) (m : Method) :
    P (countedGetter md interface m) := by
  unfold Call.countedGetter
  split
  · exact h.pure _
  · exact h.misuse _ _

theorem argumentWords (values : List Value) (parameters : List Parameter) :
    P (argumentWords values parameters) := by
  induction values generalizing parameters with
  | nil => exact h.pure _
  | cons value values ih =>
    cases parameters with
    | nil => exact h.pure _
    | cons parameter parameters =>
      unfold Call.argumentWords
      split
      · exact ih parameters
      · exact h.bind (h.encode value) fun _ => h.bind (ih parameters) fun _ => h.pure _

theorem internResult (value : Value) : P (internResult value) := by
  unfold Call.internResult
  split
  · split
    · exact h.bind (h.intern _) fun _ => h.pure _
    · exact h.pure _
  · exact h.pure _

theorem resolveEntry (md : Model) (c : TypeClass) (key : String) (value : Value) :
    P (resolveEntry md c key value) := by
  unfold Call.resolveEntry
  split
  · next property reference _ _ =>
    have found : P (do
        let decoded ← Call.decode property.valueType reference
        return (property.key, decoded)) := h.bind (h.decode _ _) fun _ => h.pure _
    dsimp only
    split
    · exact h.bind (h.warn _) fun _ => found
    · exact found
  · have missed : P (do
        Call.warn s!"Failed to translate property named \"{key}\""
        return (key, value)) := h.bind (h.warn _) fun _ => h.pure _
    dsimp only
    split
    · exact h.bind (h.warn _) fun _ => missed
    · exact missed

theorem resolveEntries (md : Model) (c : TypeClass) (entries : List (String × Value)) :
    P (resolveEntries md c entries) := by
  induction entries with
  | nil => exact h.pure _
  | cons entry entries ih =>
    exact h.bind (h.resolveEntry md c _ _) fun _ => h.bind ih fun _ => h.pure _

end Closed

/-! ## Calls that end in a fragment -/

/-- What a method does, whatever its kind is, before its result is interned. -/
def perform (md : Model) (m : Method) (arguments : List Value) : Call Value :=
  match m.kind with
  | .property => invokeProperty m arguments
  | .element => invokeElement md m arguments
  | .command => invokeCommand m arguments
  | .make => invokeMake m arguments

theorem perform_element {m : Method} (kind : m.kind = .element) (md : Model)
    (arguments : List Value) : perform md m arguments = invokeElement md m arguments := by
  rw [perform, kind]

theorem invoke_eq (method : String) (arguments : List Value) :
    invoke method arguments = model >>= fun md => handler >>= fun h =>
      match md.method? h.object.interface method with
      | none => throw (.unknownMethod h.object.interface method)
      | some m => perform md m arguments >>= internResult := by
  refine congrArg (bind model) (funext fun md => congrArg (bind handler) (funext fun h => ?_))
  cases md.method? h.object.interface method with
  | none => rfl
  | some m =>
    dsimp only [perform]
    cases m.kind <;> rfl

theorem run_invoke {scene : Scene} {md : Model} {m : Method} {method : String}
    (resolved : scene.bridge.applications.resolve? scene.handler.application
      scene.handler.object.interface = some md)
    (declared : md.method? scene.handler.object.interface method = some m)
    (arguments : List Value) :
    (invoke method arguments).run scene = (perform md m arguments >>= internResult).run scene := by
  have found : model.run scene = (.ok md, scene) := by
    simp only [model, run_bind, run_handler, run_bridge, resolved, run_pure]
  rw [invoke_eq, run_bind_ok found, run_bind_ok (run_handler scene), declared]

theorem run_invoke_undeclared {scene : Scene} {method : String}
    (undeclared : scene.method? method = none) (arguments : List Value) :
    ((invoke method arguments).run scene).2 = scene := by
  unfold Scene.method? at undeclared
  rw [invoke_eq, run_bind, model, run_bind_ok (run_handler scene), run_bind_ok (run_bridge scene)]
  cases resolved : scene.bridge.applications.resolve? scene.handler.application
      scene.handler.object.interface with
  | none => rfl
  | some md =>
    rw [resolved, Option.bind_some] at undeclared
    simp only [run_pure, run_bind, run_handler, undeclared, run_throw]

/-- A property of the calls that come to an end after preparations: they are refused, read a
specifier or execute a fragment that gives what is wanted. What is done to prepare has a property of
its own. -/
structure Prepared (Wanted : ValueType → Prop) (P : ∀ {α : Type}, Call α → Prop)
    (Q : Call Value → Prop) : Prop where
  closed : Closed P
  after : ∀ {α : Type} {x : Call α} {f : α → Call Value}, P x → (∀ a, Q (f a)) → Q (x >>= f)
  refuse : ∀ e, Q (throw e)
  decode : ∀ target reference, Q (decode target reference)
  execute : ∀ text returns, Wanted returns → Q (execute text returns)

namespace Prepared

variable {Wanted : ValueType → Prop} {P : ∀ {α : Type}, Call α → Prop} {Q : Call Value → Prop}
  (h : Prepared Wanted P Q)
include h

theorem misuse (m : Method) (fault : ArgumentFault) : Q (misuse m fault) := h.refuse _

theorem lookup (specifier : String) {returns : ValueType} (wanted : Wanted returns) :
    Q (lookup specifier returns) := by
  refine h.after h.closed.handler fun handler => ?_
  split
  · exact h.decode _ _
  · exact h.execute _ _ wanted

section
variable {m : Method} (wanted : Wanted m.returns) (md : Model) (arguments : List Value)
include wanted

theorem invokeProperty : Q (invokeProperty m arguments) := by
  refine h.after (h.closed.scriptName m) fun name => h.after h.closed.handler fun handler => ?_
  split
  · exact h.execute _ _ wanted
  · split
    · split
      · exact h.misuse _ _
      · exact h.after (h.closed.encode _) fun _ => h.execute _ _ wanted
    · exact h.misuse _ _

theorem elementList (element : ValueType) : Q (elementList md m element arguments) :=
  h.after (h.closed.plural _ _ _) fun _ => h.after (h.closed.whereClause _ _) fun _ =>
    h.after h.closed.handler fun _ => h.execute _ _ wanted

theorem elementAt : Q (elementAt md m arguments) :=
  h.after (h.closed.itemNumber _ _) fun _ => h.after (h.closed.plural _ _ _) fun _ =>
    h.after h.closed.handler fun _ => h.lookup _ wanted

theorem elementWithId : Q (elementWithId m arguments) := by
  unfold Call.elementWithId
  split
  · exact h.after (h.closed.scriptType m) fun _ => h.after h.closed.handler fun _ =>
      h.lookup _ wanted
  · exact h.misuse _ _

theorem setElement : Q (setElement md m arguments) := by
  refine h.after (h.closed.itemNumber _ _) fun item => ?_
  split
  · exact h.misuse _ _
  · exact h.after (h.closed.plural _ _ _) fun _ => h.after h.closed.handler fun _ =>
      h.execute _ _ wanted

theorem countElements : Q (countElements md m arguments) :=
  h.after h.closed.handler fun _ => h.after (h.closed.countedGetter _ _ _) fun _ =>
    h.after (h.closed.plural _ _ _) fun _ => h.after (h.closed.whereClause _ _) fun _ =>
      h.execute _ _ wanted

theorem getElements : Q (getElements md m arguments) := by
  unfold Call.getElements
  dsimp only
  split
  · exact h.elementList wanted _ _ _
  · exact h.elementList wanted _ _ _
  · exact h.elementAt wanted _ _
  · exact h.elementAt wanted _ _
  · exact h.elementAt wanted _ _
  · exact h.elementWithId wanted _
  · exact h.misuse _ _

theorem invokeElement : Q (invokeElement md m arguments) := by
  unfold Call.invokeElement
  split
  · exact h.getElements wanted _ _
  · split
    · exact h.setElement wanted _ _
    · split
      · exact h.countElements wanted _ _
      · exact h.misuse _ _

theorem invokeCommand : Q (invokeCommand m arguments) := by
  unfold Call.invokeCommand
  split
  · exact h.misuse _ _
  · exact h.after (h.closed.scriptName m) fun _ => h.after (h.closed.argumentWords _ _) fun _ =>
      h.execute _ _ wanted

end

theorem invokeMake (objects : ∀ interface, Wanted (.object interface)) (m : Method)
    (arguments : List Value) : Q (invokeMake m arguments) := by
  unfold Call.invokeMake
  split
  · refine h.after h.closed.bridge fun b => h.after h.closed.handler fun handler => ?_
    split
    · exact h.execute _ _ (objects _)
    · exact h.refuse _
  · exact h.misuse _ _

/-- Making something asks for what is made; all other methods ask for what they return. -/
theorem performKind {m : Method} (wanted : m.kind ≠ .make → Wanted m.returns)
    (objects : m.kind = .make → ∀ interface, Wanted (.object interface)) (md : Model)
    (arguments : List Value) : Q (perform md m arguments) := by
  unfold Call.perform
  cases kind : m.kind with
  | property => exact h.invokeProperty (wanted (by simp [kind])) arguments
  | element => exact h.invokeElement (wanted (by simp [kind])) md arguments
  | command => exact h.invokeCommand (wanted (by simp [kind])) arguments
  | make => exact h.invokeMake (objects kind) m arguments

theorem perform {m : Method} (wanted : Wanted m.returns)
    (objects : ∀ interface, Wanted (.object interface)) (md : Model) (arguments : List Value) :
    Q (perform md m arguments) :=
  h.performKind (fun _ => wanted) (fun _ => objects) md arguments

end Prepared

/-! ## Steady relations -/

/-- However a call ends, the scene it leaves is in a relation with the scene it was made in. -/
def Keeps {α : Type} (R : Scene → Scene → Prop) (x : Call α) : Prop :=
  ∀ scene, R scene (x.run scene).2

/-- A relation between scenes that holds of everything that calls for wanted results are made of. -/
structure Steady (Wanted : ValueType → Prop) (R : Scene → Scene → Prop) : Prop where
  refl : ∀ scene, R scene scene
  trans : ∀ {one two three}, R one two → R two three → R one three
  log : ∀ scene level message, R scene { scene with bridge := scene.bridge.log level message }
  remember : ∀ scene c, R scene { scene with handler := { scene.handler with known := some c } }
  execute : ∀ text returns, Wanted returns → Keeps R (execute text returns)

namespace Steady

variable {Wanted : ValueType → Prop} {R : Scene → Scene → Prop} (h : Steady Wanted R)
include h

theorem reads {α : Type} {x : Call α} (hx : ∀ scene, (x.run scene).2 = scene) : Keeps R x := by
  intro scene
  rw [hx]
  exact h.refl scene

theorem bind {α β : Type} {x : Call α} {f : α → Call β} (hx : Keeps R x)
    (hf : ∀ a, Keeps R (f a)) : Keeps R (x >>= f) := by
  intro scene
  have first := hx scene
  rw [run_bind]
  cases ran : x.run scene with
  | mk result after =>
    rw [ran] at first
    cases result with
    | error e => exact first
    | ok a => exact h.trans first (hf a after)

/-- Whatever reads the scene and logs keeps a steady relation. -/
theorem closed : Closed (Keeps R) where
  pure _ := h.reads fun _ => rfl
  throw _ := h.reads fun _ => rfl
  bind := h.bind
  handler := h.reads fun _ => rfl
  bridge := h.reads fun _ => rfl
  log level message scene := h.log scene level message

theorem prepared : Prepared Wanted (Keeps R) (Keeps R) where
  closed := h.closed
  after := h.bind
  refuse := h.closed.throw
  decode := h.closed.decode
  execute := h.execute

theorem invoke (all : ∀ returns, Wanted returns) (method : String) (arguments : List Value) :
    Keeps R (invoke method arguments) := by
  rw [invoke_eq]
  refine h.bind h.closed.model fun md => h.bind h.closed.handler fun handler => ?_
  split
  · exact h.closed.throw _
  · next m _ =>
    exact h.bind (h.prepared.perform (all _) (fun _ => all _) md arguments) h.closed.internResult

theorem invoke_at {scene : Scene} {method : String}
    (wanted : ∀ m, scene.method? method = some m → m.kind ≠ .make → Wanted m.returns)
    (objects : ∀ m, scene.method? method = some m → m.kind = .make →
      ∀ interface, Wanted (.object interface))
    (arguments : List Value) : R scene ((Call.invoke method arguments).run scene).2 := by
  cases declared : scene.method? method with
  | none =>
    rw [run_invoke_undeclared declared]
    exact h.refl scene
  | some m =>
    obtain ⟨md, resolved, found⟩ := Option.bind_eq_some_iff.mp declared
    rw [run_invoke resolved found]
    exact h.bind (h.prepared.performKind (wanted m declared) (objects m declared) md arguments)
      h.closed.internResult scene

/-! ### Classes and properties of the object -/

section
variable (classes : Wanted .typeClass)
include classes

theorem objectClass : Keeps R objectClass := by
  refine h.bind h.closed.handler fun handler => ?_
  split
  · exact h.closed.pure _
  · refine h.bind (h.execute _ _ classes) fun answer => ?_
    split
    · refine h.bind (h.closed.intern _) fun c => h.bind ?_ fun _ => h.closed.pure c
      exact fun scene => h.remember scene c
    · exact h.closed.throw _

theorem isInstanceOf (c : TypeClass) : Keeps R (isInstanceOf c) :=
  h.bind (h.closed.intern c) fun _ => h.bind (h.objectClass classes) fun _ => h.closed.pure _

theorem recordClass (md : Model) (record : List (String × Value)) :
    Keeps R (recordClass md record) := by
  refine h.bind h.closed.handler fun handler => ?_
  split
  · exact h.closed.intern _
  · split
    · exact h.closed.intern _
    · refine h.bind (h.objectClass classes) fun c => ?_
      split
      · split
        · exact h.closed.pure _
        · exact h.closed.throw _
      · exact h.closed.pure c

end

theorem propertyRecord (records : Wanted .record) : Keeps R propertyRecord := by
  refine h.bind h.closed.handler fun handler => ?_
  split
  · exact h.closed.pure _
  · refine h.bind (h.execute _ _ records) fun answer => ?_
    split
    · exact h.closed.pure _
    · exact h.closed.pure _

theorem properties (classes : Wanted .typeClass) (records : Wanted .record) :
    Keeps R properties := by
  refine h.bind (h.propertyRecord records) fun record => ?_
  split
  · exact h.closed.pure _
  · refine h.bind (h.closed.decode _ _) fun raw => h.bind h.closed.handler fun handler =>
      h.bind h.closed.bridge fun b => ?_
    split
    · exact h.bind (h.closed.warn _) fun _ => h.closed.pure _
    · exact h.bind (h.recordClass classes _ _) fun _ =>
        h.bind (h.closed.resolveEntries _ _ _) fun _ => h.closed.pure _

end Steady
end Call
end ScriptBridge
