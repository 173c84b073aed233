import ScriptBridge.TypeClass.Table
/-!
What the intern table holds after any history of its use.

A request either gets the class that its name leads to, and leaves the table as it is, or it gets a
new one (`answer_known`, `answer_new`). A class that is built under a name and a code is cached
under both, and what was cached under the code before is lost, since classes may share a code. What
is introduced is in `of_lookup_answer` and what is retained in `lookup_answer_of_lookup`; the rest
follows from these two.

A table is anchored if the code of every cached class leads to a class with that code; every table
is (`Anchored.intern`). It is settled if it leads back to the class itself; a table stays settled as
long as no class is built under a code that leads somewhere already (`Settled.intern`).
-/
namespace ScriptBridge

/-- What is asked of the intern table. -/
structure ClassRequest where
  name : Option String := none
  code : Option String := none
  application : Option String := none
  superclass : Option TypeClass := none
  deriving DecidableEq

namespace ClassRequest

/-- The class as the request describes it. -/
def described (r : ClassRequest) : TypeClass :=
  .below { name := r.name, code := r.code, application := r.application } r.superclass

/-- A request whose class is cached under a text if it is built. -/
structure Caches (r : ClassRequest) (text : String) : Prop where
  unscoped : r.application = none
  named : r.name.isSome
  coded : r.code.isSome
  key : r.name = some text ∨ r.code = some text

end ClassRequest

namespace ClassTable

theorem lookup_insertEntry (key sought : String) (c : InternedClass)
    (entries : List (String × InternedClass)) :
    (insertEntry key c entries).lookup sought =
      if sought = key then some c else entries.lookup sought := by
  induction entries with
  | nil =>
    by_cases same : sought = key
    · simp [insertEntry, same]
    · simp [insertEntry, List.lookup_cons, same, beq_false_of_ne same]
  | cons entry entries ih =>
    rw [insertEntry]
    by_cases known : entry.1 = key
    · rw [if_pos known, List.lookup_cons, List.lookup_cons]
      by_cases same : sought = key
      · simp [same]
      · simp [same, known, beq_false_of_ne same]
    · rw [if_neg known, List.lookup_cons, List.lookup_cons, ih]
      by_cases here : sought = entry.1
      · simp [here, known]
      · simp [beq_false_of_ne here]

/-! ## One request -/

/-- The answer to a request, and the table after it. -/
def answer (t : ClassTable) (r : ClassRequest) : InternedClass × ClassTable :=
  t.intern r.name r.code r.application r.superclass

section
variable {t : ClassTable} {r : ClassRequest} {key text : String} {c cached : InternedClass}

theorem answer_known (known : r.name.bind t.lookup = some cached) : t.answer r = (cached, t) := by
  rw [answer, intern, known]

theorem exists_lookup_of_cached (cached : r.name.bind t.lookup ≠ none) :
    ∃ key, t.lookup key = some (t.answer r).1 := by
  obtain ⟨c, known⟩ := Option.ne_none_iff_exists'.mp cached
  obtain ⟨name, -, found⟩ := Option.bind_eq_some_iff.mp known
  exact ⟨name, by rw [answer_known known, found]⟩

/-- A class whose name is not cached is built as it is described, under the next serial number. -/
theorem answer_new (new : r.name.bind t.lookup = none) :
    (t.answer r).1 = { serial := t.next, value := r.described } ∧
      (t.answer r).2.next = t.next + 1 := by
  rw [answer, intern, new]
  exact ⟨rfl, rfl⟩

theorem entries_answer_owned (owned : r.application ≠ none) :
    (t.answer r).2.entries = t.entries := by
  rw [answer, intern]
  split
  · rfl
  · dsimp only
    split
    · next unscoped => exact absurd unscoped owned
    · rfl

theorem lookup_answer_of_caches (new : r.name.bind t.lookup = none) (caches : r.Caches key) :
    (t.answer r).2.lookup key = some { serial := t.next, value := r.described } := by
  obtain ⟨unscoped, named, coded, spelled⟩ := caches
  obtain ⟨name, hname⟩ := Option.isSome_iff_exists.mp named
  obtain ⟨code, hcode⟩ := Option.isSome_iff_exists.mp coded
  rw [answer, intern, new, ClassRequest.described]
  simp only [hname, hcode, unscoped, Option.some.injEq] at spelled ⊢
  rw [lookup, lookup_insertEntry, lookup_insertEntry]
  rcases spelled with rfl | rfl <;> simp

theorem lookup_answer_of_not_caches (other : ¬ r.Caches key) :
    (t.answer r).2.lookup key = t.lookup key := by
  rw [answer, intern]
  split
  · rfl
  · dsimp only
    split
    · next name code hname hcode unscoped =>
      have notCode : key ≠ code := by
        rintro rfl
        exact other ⟨unscoped, by simp [hname], by simp [hcode], .inr hcode⟩
      have notName : key ≠ name := by
        rintro rfl
        exact other ⟨unscoped, by simp [hname], by simp [hcode], .inl hname⟩
      rw [lookup, lookup_insertEntry, lookup_insertEntry, if_neg notCode, if_neg notName, lookup]
    · rfl

/-- What is cached after a request was cached before, or it is the class that was built. -/
theorem of_lookup_answer (found : (t.answer r).2.lookup key = some c) :
    t.lookup key = some c ∨ r.name.bind t.lookup = none ∧ r.Caches key ∧
      c = { serial := t.next, value := r.described } := by
  by_cases caches : r.Caches key
  · cases known : r.name.bind t.lookup with
    | some cached =>
      rw [answer_known known] at found
      exact .inl found
    | none =>
      rw [lookup_answer_of_caches known caches] at found
      exact .inr ⟨rfl, caches, (Option.some.inj found).symm⟩
  · rw [lookup_answer_of_not_caches caches] at found
    exact .inl found

/-- What is cached before a request is cached after it, unless a class was built under the key as
its code. -/
theorem lookup_answer_of_lookup (found : t.lookup key = some c) :
    (t.answer r).2.lookup key = some c ∨ r.code = some key ∧
      (t.answer r).2.lookup key = some { serial := t.next, value := r.described } := by
  by_cases caches : r.Caches key
  · cases known : r.name.bind t.lookup with
    | some cached =>
      rw [answer_known known]
      exact .inl found
    | none =>
      refine .inr ⟨caches.key.resolve_left fun named => ?_, lookup_answer_of_caches known caches⟩
      rw [named, Option.bind_some, found] at known
      cases known
  · rw [lookup_answer_of_not_caches caches]
    exact .inl found

theorem exists_lookup_answer (caches : r.Caches text) (named : r.name = some text) :
    ∃ c, (t.answer r).2.lookup text = some c := by
  cases known : r.name.bind t.lookup with
  | some cached =>
    rw [answer_known known]
    rw [named, Option.bind_some] at known
    exact ⟨cached, known⟩
  | none => exact ⟨_, lookup_answer_of_caches known caches⟩

end

/-! ## Codes -/

/-- The cached classes belong to no application and have codes, and every such code leads to a class
with the same code. -/
def Anchored (t : ClassTable) : Prop :=
  ∀ key c, t.lookup key = some c → c.value.label.application = none ∧
    ∃ code holder, c.value.label.code = some code ∧ t.lookup code = some holder ∧
      holder.value.label.code = some code

/-- The code of every cached class leads to the class. -/
def Settled (t : ClassTable) : Prop :=
  ∀ key c, t.lookup key = some c → ∀ code, c.value.label.code = some code →
    t.lookup code = some c

variable {t : ClassTable}

theorem Anchored.empty : Anchored {} := fun _ _ h => by cases h

theorem Settled.empty : Settled {} := fun _ _ h => by cases h

theorem Anchored.intern (h : t.Anchored) (name code application : Option String)
    (superclass : Option TypeClass) :
    (t.intern name code application superclass).2.Anchored := by
  intro key c found
  rcases of_lookup_answer (r := ⟨name, code, application, superclass⟩) found with
    here | ⟨new, caches, rfl⟩
  · obtain ⟨unscoped, code', holder, coded, held, same⟩ := h key c here
    rcases lookup_answer_of_lookup (r := ⟨name, code, application, superclass⟩) held with
      kept | ⟨shared, replaced⟩
    · exact ⟨unscoped, code', holder, coded, kept, same⟩
    · exact ⟨unscoped, code', _, coded, replaced, shared⟩
  · obtain ⟨chevron, hcode⟩ := Option.isSome_iff_exists.mp caches.coded
    have leads := lookup_answer_of_caches new { caches with key := .inr hcode }
    exact ⟨caches.unscoped, chevron, _, hcode, leads, hcode⟩

theorem Settled.intern (h : t.Settled) (name code application : Option String)
    (superclass : Option TypeClass) (fresh : ∀ chevron ∈ code, t.lookup chevron = none) :
    (t.intern name code application superclass).2.Settled := by
  intro key c found code' coded
  rcases of_lookup_answer (r := ⟨name, code, application, superclass⟩) found with
    here | ⟨new, caches, rfl⟩
  · have held := h key c here code' coded
    rcases lookup_answer_of_lookup (r := ⟨name, code, application, superclass⟩) held with
      kept | ⟨shared, -⟩
    · exact kept
    · rw [fresh code' shared] at held
      cases held
  · exact lookup_answer_of_caches new { caches with key := .inr coded }

end ClassTable
end ScriptBridge
