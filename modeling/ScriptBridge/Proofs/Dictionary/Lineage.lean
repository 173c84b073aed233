import Mathlib.Data.List.Nodup
import Mathlib.Data.List.Perm.Subperm
import Mathlib.Logic.Relation
import ScriptBridge.Dictionary.Basic
/-!
The superclasses of a declared class.

`d.Extends c p` says that `p` is the class that `c` names as its superclass, and `d.Lineage c above`
that `above` are all superclasses of `c`, nearest first, up to one that names none. A class has one
lineage at most, which is what makes a lineage free of repetitions (`Lineage.nodup`) and so no
longer than the dictionary (`Lineage.length_lt`). A class and its lineage are the class and its
ancestors (`Lineage.mem_iff`).
-/
namespace ScriptBridge.Dictionary

/-- The class that another one names as its superclass. -/
def Extends (d : Dictionary) (c p : ClassEntry) : Prop :=
  ∃ interface, c.superclass = some interface ∧ d.class? interface = some p

/-- The superclasses of a class, nearest first. -/
inductive Lineage (d : Dictionary) : ClassEntry → List ClassEntry → Prop
  | top {c : ClassEntry} (h : c.superclass = none) : Lineage d c []
  | step {c p : ClassEntry} {above : List ClassEntry} (h : d.Extends c p) (hp : Lineage d p above) :
      Lineage d c (p :: above)

section
variable {d : Dictionary} {c p : ClassEntry} {above : List ClassEntry}

theorem mem_of_class? {interface : String} (h : d.class? interface = some c) : c ∈ d.classes :=
  List.mem_of_find?_eq_some h

theorem interface_of_class? {interface : String} (h : d.class? interface = some c) :
    c.interface = interface := by
  simpa using List.find?_some h

theorem class?_interface (hd : (d.classes.map (·.interface)).Nodup) (hc : c ∈ d.classes) :
    d.class? c.interface = some c := by
  cases found : d.class? c.interface with
  | none => exact absurd (List.find?_eq_none.mp found c hc) (by simp)
  | some other =>
    rw [List.inj_on_of_nodup_map hd (mem_of_class? found) hc (interface_of_class? found)]

theorem Extends.mem (h : d.Extends c p) : p ∈ d.classes := by
  obtain ⟨interface, -, found⟩ := h
  exact mem_of_class? found

theorem Extends.first (h : d.Extends c p) : d.class? p.interface = some p := by
  obtain ⟨interface, -, found⟩ := h
  rwa [interface_of_class? found]

theorem Extends.unique {q : ClassEntry} (hp : d.Extends c p) (hq : d.Extends c q) : p = q := by
  obtain ⟨one, super₁, found₁⟩ := hp
  obtain ⟨two, super₂, found₂⟩ := hq
  obtain rfl : one = two := Option.some.inj (super₁.symm.trans super₂)
  exact Option.some.inj (found₁.symm.trans found₂)

namespace Lineage

theorem unique {other : List ClassEntry} (h₁ : d.Lineage c above) (h₂ : d.Lineage c other) :
    above = other := by
  induction h₁ generalizing other with
  | top none₁ =>
    cases h₂ with
    | top => rfl
    | step extends₂ _ =>
      obtain ⟨_, some₂, _⟩ := extends₂
      rw [none₁] at some₂
      cases some₂
  | step extends₁ _ ih =>
    cases h₂ with
    | top none₂ =>
      obtain ⟨_, some₁, _⟩ := extends₁
      rw [none₂] at some₁
      cases some₁
    | step extends₂ h₂ =>
      obtain rfl := extends₁.unique extends₂
      rw [ih h₂]

theorem subset (h : d.Lineage c above) : ∀ p ∈ above, p ∈ d.classes := by
  induction h with
  | top => exact fun p hp => absurd hp List.not_mem_nil
  | step hext _ ih =>
    intro q hq
    rcases List.mem_cons.mp hq with rfl | hq
    · exact hext.mem
    · exact ih q hq

theorem shorter (h : d.Lineage c above) {q : ClassEntry} (hq : q ∈ above) :
    ∃ rest, d.Lineage q rest ∧ rest.length < above.length := by
  induction h with
  | top => exact absurd hq List.not_mem_nil
  | @step c p above _ hp ih =>
    rcases List.mem_cons.mp hq with rfl | hq
    · exact ⟨above, hp, Nat.lt_succ_self _⟩
    · obtain ⟨rest, hrest, length⟩ := ih hq
      exact ⟨rest, hrest, Nat.lt_succ_of_lt length⟩

theorem notMem (h : d.Lineage c above) : c ∉ above := by
  intro hc
  -- Its lineage would be a lineage of itself that is shorter, but it has only one.
  obtain ⟨rest, hrest, length⟩ := h.shorter hc
  rw [hrest.unique h] at length
  exact Nat.lt_irrefl _ length

theorem nodup (h : d.Lineage c above) : above.Nodup := by
  induction h with
  | top => exact List.nodup_nil
  | step _ hp ih => exact List.nodup_cons.mpr ⟨hp.notMem, ih⟩

theorem length_lt (h : d.Lineage c above) (hc : c ∈ d.classes) :
    above.length < d.classes.length := by
  have distinct : (c :: above).Nodup := List.nodup_cons.mpr ⟨h.notMem, h.nodup⟩
  have inside : (c :: above) ⊆ d.classes := List.cons_subset.mpr ⟨hc, h.subset⟩
  exact (distinct.subperm inside).length_le

theorem mem_iff (h : d.Lineage c above) : p ∈ c :: above ↔ Relation.ReflTransGen d.Extends c p := by
  constructor
  · intro hp
    induction h with
    | top =>
      rw [List.mem_singleton.mp hp]
    | step hext _ ih =>
      rcases List.mem_cons.mp hp with rfl | hp
      · exact .refl
      · exact .head hext (ih hp)
  · intro hp
    induction hp using Relation.ReflTransGen.head_induction_on generalizing above with
    | refl => exact List.mem_cons_self
    | head hext _ ih =>
      cases h with
      | top none =>
        obtain ⟨_, some, _⟩ := hext
        rw [none] at some
        cases some
      | step hext' h =>
        obtain rfl := hext.unique hext'
        exact List.mem_cons_of_mem _ (ih h)

/-- No chain of superclasses leads from a class with a lineage back to it. -/
theorem not_above_itself (h : d.Lineage c above) : ¬Relation.TransGen d.Extends c c := by
  intro round
  obtain ⟨p, hext, back⟩ := Relation.TransGen.head'_iff.mp round
  cases h with
  | top root =>
    obtain ⟨_, named, _⟩ := hext
    rw [root] at named
    cases named
  | step hext' hp =>
    obtain rfl := hext.unique hext'
    exact (Lineage.step hext hp).notMem (hp.mem_iff.mpr back)

end Lineage
end

end ScriptBridge.Dictionary
