/-!
Computations that may fail: what is known of the parts of one that succeeds (`ok_of_map`,
`ok_of_bind`), how a row of them ends (`mapM_outcome`), and that a row succeeds wherever its parts
do (`mapM_ok_of_imp`). A search along a list finds what the first element has that has anything
(`findSome?_eq_some_iff_first`).
-/
namespace ScriptBridge

section
variable {α β ε : Type}

theorem ok_of_map {f : α → β} {x : Except ε α} {b : β} (h : x.map f = .ok b) :
    ∃ a, x = .ok a ∧ f a = b := by
  cases x with
  | error e => cases h
  | ok a => exact ⟨a, rfl, Except.ok.inj h⟩

theorem ok_of_bind {x : Except ε α} {f : α → Except ε β} {b : β} (h : (x >>= f) = .ok b) :
    ∃ a, x = .ok a ∧ f a = .ok b := by
  cases x with
  | error e => cases h
  | ok a => exact ⟨a, rfl, h⟩

theorem mapM_ok_of_imp {f g : α → Except ε β} (h : ∀ item result, f item = .ok result →
    g item = .ok result) {items : List α} {results : List β} (ran : items.mapM f = .ok results) :
    items.mapM g = .ok results := by
  induction items generalizing results with
  | nil => exact ran
  | cons item items ih =>
    rw [List.mapM_cons] at ran ⊢
    obtain ⟨result, first, ran⟩ := ok_of_bind ran
    obtain ⟨more, rest, ran⟩ := ok_of_bind ran
    rw [h item result first, ih rest]
    exact ran

/-- Items are treated one after another, up to the first that fails. -/
theorem mapM_outcome (f : α → Except ε β) (items : List α) :
    (∃ results, items.mapM f = .ok results ∧ items.map f = results.map .ok) ∨
      ∃ before item after e, items = before ++ item :: after ∧
        (∀ known ∈ before, ∃ result, f known = .ok result) ∧ f item = .error e ∧
        items.mapM f = .error e := by
  induction items with
  | nil => exact .inl ⟨[], rfl, rfl⟩
  | cons item items ih =>
    cases first : f item with
    | error e =>
      refine .inr ⟨[], item, items, e, rfl, fun _ h => absurd h List.not_mem_nil, first, ?_⟩
      rw [List.mapM_cons, first]
      rfl
    | ok result =>
      obtain ⟨results, ran, each⟩ | ⟨before, failing, after, e, rfl, passed, failed, ran⟩ := ih
      · refine .inl ⟨result :: results, ?_, ?_⟩
        · rw [List.mapM_cons, first, ran]
          rfl
        · rw [List.map_cons, List.map_cons, first, each]
      · refine .inr ⟨item :: before, failing, after, e, rfl, ?_, failed, ?_⟩
        · exact List.forall_mem_cons.mpr ⟨⟨result, first⟩, passed⟩
        · rw [List.mapM_cons, first, ran]
          rfl

theorem mem_of_mapM {f : α → Except ε β} {items : List α} {results : List β}
    (ran : items.mapM f = .ok results) :
    ∀ result ∈ results, ∃ item ∈ items, f item = .ok result := by
  obtain ⟨found, ran', each⟩ | ⟨-, -, -, e, -, -, -, failed⟩ := mapM_outcome f items
  · obtain rfl := Except.ok.inj (ran.symm.trans ran')
    intro result known
    have inside : .ok result ∈ items.map f := each ▸ List.mem_map_of_mem known
    exact List.mem_map.mp inside
  · rw [ran] at failed
    cases failed

end

theorem findSome?_eq_some_iff_first {α β : Type} {find : α → Option β} {has : α → β → Prop}
    (agree : ∀ a b, find a = some b ↔ has a b) {l : List α} {b : β} :
    l.findSome? find = some b ↔
      ∃ before a after, l = before ++ a :: after ∧ (∀ p ∈ before, ∀ c, ¬has p c) ∧ has a b := by
  have nothing (a : α) : find a = none ↔ ∀ c, ¬has a c := by
    rw [Option.eq_none_iff_forall_ne_some]
    exact forall_congr' fun c => not_congr (agree a c)
  rw [List.findSome?_eq_some_iff]
  constructor
  · rintro ⟨before, a, after, split, here, earlier⟩
    exact ⟨before, a, after, split, fun p hp => (nothing p).mp (earlier p hp), (agree a b).mp here⟩
  · rintro ⟨before, a, after, split, earlier, here⟩
    exact ⟨before, a, after, split, (agree a b).mpr here,
      fun p hp => (nothing p).mpr (earlier p hp)⟩

end ScriptBridge
