import ScriptBridge.Proofs.Dictionary.Classes
import ScriptBridge.Proofs.TypeClass.Table
/-!
Interning a class a second time.

A class of an application stands for the declared class that it is taken for, and that one for
itself. A class of no application stands for the cached class that its code or else its name leads
to; its name may lead to a class whose code was given to a later one, and then the second pass
arrives at the later class. It ends there: what is interned twice does not change any more, and it
did not change the second time exactly if the code of the cached class leads to that class
(`Bridge.internTypeClass_settles`).
-/
namespace ScriptBridge

namespace Model

/-- No class is taken for two of the declared ones. -/
def Apart (m : Model) : Prop :=
  ∀ c, ∀ one ∈ m.typeClasses, ∀ two ∈ m.typeClasses,
    isDeclaredAs one.2 c = true → isDeclaredAs two.2 c = true → one = two

variable {m : Model} {c declared : TypeClass}

theorem Apart.declaredTypeClass?_found (apart : m.Apart)
    (found : m.declaredTypeClass? c = some declared) :
    m.declaredTypeClass? declared = some declared := by
  obtain ⟨item, chosen, rfl⟩ := Option.map_eq_some_iff.mp found
  obtain ⟨inside, named⟩ := of_declared? chosen
  have itself := isDeclaredAs_self_of named
  obtain ⟨other, again⟩ := exists_declared? inside itself
  obtain ⟨inside', named'⟩ := of_declared? again
  rw [declaredTypeClass?, again, apart item.2 other inside' item inside named' itself,
    Option.map_some]

end Model

/-! ## Classes of applications -/

namespace Registry

/-- Each application is registered with the model of a dictionary. -/
def Built (r : Registry) : Prop :=
  ∀ application m, r.get? application = some m → ∃ d, Model.build d application = .ok m

variable {r : Registry}

theorem Built.register (h : r.Built) {d : Dictionary} {application : String} {m : Model}
    {after : Registry} (ran : r.register d application = .ok (m, after)) : after.Built := by
  rw [Registry.register] at ran
  split at ran
  · cases ran
    exact h
  · obtain ⟨m, built, same⟩ := ok_of_map ran
    cases same
    intro sought found got
    rw [get?, List.lookup_append, Option.or_eq_some_iff] at got
    rcases got with got | ⟨-, got⟩
    · exact h sought found got
    · cases List.mem_singleton.mp (mem_of_lookup got)
      exact ⟨d, built⟩

theorem intern_cases (r : Registry) (c : TypeClass) :
    r.intern c = c ∨ ∃ application m, c.label.application = some application ∧
      r.get? application = some m ∧ m.declaredTypeClass? c = some (r.intern c) := by
  cases owned : c.label.application with
  | none => simp [intern, findDeclared, owned]
  | some application =>
    cases got : r.get? application with
    | none => simp [intern, findDeclared, owned, got]
    | some m =>
      cases found : m.declaredTypeClass? c with
      | none => simp [intern, findDeclared, owned, got, found]
      | some declared => simp [intern, findDeclared, owned, got, found]

theorem Built.application_intern (h : r.Built) (c : TypeClass) :
    (r.intern c).label.application = c.label.application := by
  obtain same | ⟨application, m, owned, got, found⟩ := intern_cases r c
  · rw [same]
  obtain ⟨item, chosen, same⟩ := Option.map_eq_some_iff.mp found
  obtain ⟨d, built⟩ := h application m got
  obtain ⟨e, above, -, -, rfl⟩ := (Model.build_heads built).1 item (Model.of_declared? chosen).1
  rw [← same, owned]
  rfl

theorem Built.intern_intern (h : r.Built)
    (apart : ∀ application m, r.get? application = some m → m.Apart) (c : TypeClass) :
    r.intern (r.intern c) = r.intern c := by
  obtain same | ⟨application, m, owned, got, found⟩ := intern_cases r c
  · rw [same, same]
  have again := (apart application m got).declaredTypeClass?_found found
  have owned' := (h.application_intern c).trans owned
  generalize r.intern c = declared at again owned'
  simp only [intern, findDeclared, owned', got, again]

end Registry

/-! ## Classes of no application -/

namespace Bridge

/-- The cached class that the code of a class leads to. -/
def codeHolder? (b : Bridge) (c : TypeClass) : Option TypeClass :=
  (c.label.code.bind b.classes.lookup).map (·.value)

variable {b : Bridge} {c cached holder : TypeClass}

theorem findInterned_of_codeHolder? (h : b.codeHolder? c = some holder) :
    b.findInterned c = some holder := by
  rw [findInterned, Option.map_or]
  exact Option.or_eq_some_iff.mpr (.inl h)

theorem exists_key_of_findInterned (found : b.findInterned c = some cached) :
    ∃ key entry, b.classes.lookup key = some entry ∧ entry.value = cached := by
  obtain ⟨entry, looked, same⟩ := Option.map_eq_some_iff.mp found
  rcases Option.or_eq_some_iff.mp looked with byCode | ⟨-, byName⟩
  · obtain ⟨code, -, here⟩ := Option.bind_eq_some_iff.mp byCode
    exact ⟨code, entry, here, same⟩
  · obtain ⟨name, -, here⟩ := Option.bind_eq_some_iff.mp byName
    exact ⟨name, entry, here, same⟩

/-- A cached class is of no application, and its code leads to a class whose code leads to that
class itself. -/
theorem holder_of_findInterned (h : b.classes.Anchored) (found : b.findInterned c = some cached) :
    cached.label.application = none ∧ ∃ holder, b.codeHolder? cached = some holder ∧
      b.codeHolder? holder = some holder := by
  obtain ⟨key, entry, here, rfl⟩ := exists_key_of_findInterned found
  obtain ⟨unscoped, code, holder, coded, held, same⟩ := h key entry here
  refine ⟨unscoped, holder.value, ?_, ?_⟩
  · rw [codeHolder?, coded, Option.bind_some, held, Option.map_some]
  · rw [codeHolder?, same, Option.bind_some, held, Option.map_some]

/-! ## Every bridge -/

/-- The bridges that there can be before any script is run: one that is new, and what becomes of
one when a class is built or an application is registered, by its name or by its reference. -/
inductive Reached : Bridge → Prop where
  | new (config : Config) (executor : Executor) : Reached (new config executor)
  | typeClass {b : Bridge} (reached : Reached b) (name code application : Option String)
      (superclass : Option TypeClass) : Reached (b.typeClass name code application superclass).2
  | register {b : Bridge} (reached : Reached b) (d : Dictionary) (name : String) :
      Reached (b.register d name).2
  | registerAs {b : Bridge} (reached : Reached b) {d : Dictionary} {application : String} {m : Model}
      {applications : Registry}
      (ran : b.applications.register d application = .ok (m, applications)) :
      Reached { b with applications }

/-- What holds of the tables of every such bridge. -/
structure Orderly (b : Bridge) : Prop where
  anchored : b.classes.Anchored
  built : b.applications.Built

/-- A registration by name leaves the tables as they are, or registers a model. -/
theorem register_tables (b : Bridge) (d : Dictionary) (name : String) :
    (b.register d name).2.classes = b.classes ∧
      ((b.register d name).2.applications = b.applications ∨
        ∃ m, b.applications.register d (applicationReference name) =
          .ok (m, (b.register d name).2.applications)) := by
  unfold register
  dsimp only
  split
  · exact ⟨rfl, .inl rfl⟩
  · next m applications ran =>
    split
    · exact ⟨rfl, .inr ⟨m, ran⟩⟩
    · exact ⟨rfl, .inr ⟨m, ran⟩⟩

theorem Orderly.typeClass (h : b.Orderly) (name code application : Option String)
    (superclass : Option TypeClass) : (b.typeClass name code application superclass).2.Orderly where
  anchored := h.anchored.intern name code application superclass
  built := h.built

theorem Orderly.register (h : b.Orderly) (d : Dictionary) (name : String) :
    (b.register d name).2.Orderly := by
  obtain ⟨classes, same | ⟨m, ran⟩⟩ := register_tables b d name
  · exact ⟨classes ▸ h.anchored, same ▸ h.built⟩
  · exact ⟨classes ▸ h.anchored, h.built.register ran⟩

theorem Reached.orderly (h : Reached b) : b.Orderly := by
  induction h with
  | new config executor => exact ⟨.empty, fun _ _ got => by cases got⟩
  | typeClass _ name code application superclass ih =>
    exact ih.typeClass name code application superclass
  | register _ d name ih => exact ih.register d name
  | registerAs _ ran ih => exact ⟨ih.anchored, ih.built.register ran⟩

theorem internTypeClass_owned (h : c.label.application ≠ none) :
    b.internTypeClass c = b.applications.intern c := by
  unfold internTypeClass
  split
  · rfl
  · next none => exact absurd none h

theorem internTypeClass_found (h : c.label.application = none)
    (found : b.findInterned c = some cached) : b.internTypeClass c = cached := by
  rw [internTypeClass, h, found]
  rfl

theorem internTypeClass_unknown (h : c.label.application = none)
    (unknown : b.findInterned c = none) : b.internTypeClass c = c := by
  rw [internTypeClass, h, unknown]
  rfl

/-- A cached class stands for the one that its code leads to, and that one for itself. -/
theorem internTypeClass_cached (h : b.classes.Anchored) (found : b.findInterned c = some cached) :
    b.codeHolder? cached = some (b.internTypeClass cached) ∧
      b.internTypeClass (b.internTypeClass cached) = b.internTypeClass cached := by
  obtain ⟨unscoped, holder, held, itself⟩ := holder_of_findInterned h found
  have foundHolder := findInterned_of_codeHolder? held
  have holderUnscoped := (holder_of_findInterned h foundHolder).1
  rw [internTypeClass_found unscoped foundHolder]
  exact ⟨held, internTypeClass_found holderUnscoped (findInterned_of_codeHolder? itself)⟩

variable (orderly : b.Orderly)
  (apart : ∀ application m, b.applications.get? application = some m → m.Apart) (c : TypeClass)
include orderly apart

theorem internTypeClass_again (owned : c.label.application ≠ none) :
    b.internTypeClass (b.internTypeClass c) = b.internTypeClass c := by
  have owned' := (orderly.built.application_intern c).trans_ne owned
  rw [internTypeClass_owned owned, internTypeClass_owned owned',
    orderly.built.intern_intern apart c]

theorem internTypeClass_twice_iff :
    b.internTypeClass (b.internTypeClass c) = b.internTypeClass c ↔
      c.label.application = none → ∀ cached, b.findInterned c = some cached →
        b.codeHolder? cached = some cached := by
  by_cases unscoped : c.label.application = none
  · cases found : b.findInterned c with
    | none =>
      have once := internTypeClass_unknown unscoped found
      simp [once]
    | some cached =>
      obtain ⟨held, -⟩ := internTypeClass_cached orderly.anchored found
      rw [internTypeClass_found unscoped found]
      refine ⟨fun same _ other found' => ?_, fun leads => ?_⟩
      · rw [← Option.some.inj found', held, same]
      · exact Option.some.inj (held.symm.trans (leads unscoped cached rfl))
  · exact ⟨fun _ none => absurd none unscoped,
      fun _ => internTypeClass_again orderly apart c unscoped⟩

/-- As long as the code of every cached class leads to the class, interning is idempotent. -/
theorem internTypeClass_of_settled (settled : b.classes.Settled) :
    b.internTypeClass (b.internTypeClass c) = b.internTypeClass c := by
  refine (internTypeClass_twice_iff orderly apart c).mpr fun _ cached found => ?_
  obtain ⟨key, entry, here, rfl⟩ := exists_key_of_findInterned found
  obtain ⟨-, code, -, coded, -⟩ := orderly.anchored key entry here
  rw [codeHolder?, coded, Option.bind_some, settled key entry here code coded, Option.map_some]

end Bridge

/-- **Interning a class twice.** In whatever order classes were built and applications registered,
as long as no application has two classes that one description may stand for, interning a class a
third time changes nothing any more. The second time changed nothing either, exactly if the class
belongs to an application or is not cached or the code of the cached class leads to that class. -/
theorem Bridge.internTypeClass_settles {b : Bridge} (reached : b.Reached)
    (apart : ∀ application m, b.applications.get? application = some m → m.Apart)
    (c : TypeClass) :
    b.internTypeClass (b.internTypeClass (b.internTypeClass c)) =
        b.internTypeClass (b.internTypeClass c) ∧
      (b.internTypeClass (b.internTypeClass c) = b.internTypeClass c ↔
        c.label.application = none → ∀ cached, b.findInterned c = some cached →
          b.codeHolder? cached = some cached) := by
  have orderly := reached.orderly
  refine ⟨?_, internTypeClass_twice_iff orderly apart c⟩
  by_cases unscoped : c.label.application = none
  · cases found : b.findInterned c with
    | none =>
      have once := internTypeClass_unknown unscoped found
      rw [once, once, once]
    | some cached =>
      rw [internTypeClass_found unscoped found,
        (internTypeClass_cached orderly.anchored found).2]
  · have twice := internTypeClass_again orderly apart c unscoped
    rw [twice, twice]

namespace Synonyms

/-- A bridge that knows folders and, under another name, directories, which have the same code. -/
def bridge : Bridge :=
  let finder : Dictionary :=
    { interface := "Finder", classes := [{ interface := "Finder", name := some "application" }] }
  let b := ((Bridge.new (Config.default none) (.rehearsal [])).register finder "Finder").2
  let b := (b.typeClass (some "folder") (some "«class cfol»") none none).2
  (b.typeClass (some "directory") (some "«class cfol»") none none).2

/-- What an application may report of a folder. -/
def reported : TypeClass where
  label := { name := some "folder" }

theorem bridge_reached : bridge.Reached :=
  .typeClass (.typeClass (.register (.new _ _) _ _) _ _ _ _) _ _ _ _

/-- The folder is interned as the cached folder, and that one as the cached directory. -/
theorem folder_interned_twice :
    bridge.internTypeClass reported = .builtin "folder" "cfol" ∧
      bridge.internTypeClass (bridge.internTypeClass reported) ≠ bridge.internTypeClass reported ∧
      bridge.internTypeClass (bridge.internTypeClass (bridge.internTypeClass reported)) =
        bridge.internTypeClass (bridge.internTypeClass reported) := by
  have apart : ∀ application m, bridge.applications.get? application = some m → m.Apart := by
    intro application m got c one inside two inside' _ _
    cases List.mem_singleton.mp (mem_of_lookup got)
    exact (List.mem_singleton.mp inside).trans (List.mem_singleton.mp inside').symm
  obtain ⟨settled, same⟩ := Bridge.internTypeClass_settles bridge_reached apart reported
  refine ⟨rfl, fun unchanged => ?_, settled⟩
  exact absurd (same.mp unchanged rfl (.builtin "folder" "cfol") rfl) (by decide)

end Synonyms

end ScriptBridge
