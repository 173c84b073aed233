import ScriptBridge.TypeClass.Basic
/-!
The two sides of the lenient comparison.

Labels meet if they share a text, as a name or as a code of either, or if neither has a name. Labels
that meet agree, and besides these a label without a name agrees with every label without a code,
since the absent name is compared with the absent code (`agreesWith_iff`). Meeting is symmetric and
the rest is not. So a comparison depends on the order of its sides exactly if one of them has no
name, the other no code, and a name that is not the code of the first; and a walk up a chain of
superclasses depends on it exactly if there is such a match on the chain and none in the other
direction (`TypeClass.looselyEquals_comm_iff`).
-/
namespace ScriptBridge

namespace ClassLabel

/-- Whether a text is the name or the code of a class. -/
def IsCalled (a : ClassLabel) (text : String) : Prop := a.name = some text ∨ a.code = some text

/-- Labels that share a text, or have no names. -/
def Meets (a b : ClassLabel) : Prop :=
  (a.name = none ∧ b.name = none) ∨ ∃ text, a.IsCalled text ∧ b.IsCalled text

/-- A label without a name against one without a code, whose name is not the code of the first. -/
structure OneSided (a b : ClassLabel) : Prop where
  nameless : a.name = none
  codeless : b.code = none
  named : ∃ text, b.name = some text ∧ a.code ≠ some text

variable {a b : ClassLabel}

theorem Meets.symm (h : a.Meets b) : b.Meets a := by
  rcases h with ⟨one, two⟩ | ⟨text, one, two⟩
  · exact .inl ⟨two, one⟩
  · exact .inr ⟨text, two, one⟩

theorem agreesWith_iff :
    a.agreesWith b = true ↔ a.Meets b ∨ (a.name = none ∧ b.code = none) := by
  simp only [agreesWith, Bool.or_eq_true, Bool.and_eq_true, beq_iff_eq]
  refine ⟨fun agrees => ?_, fun agrees => ?_⟩
  · rcases agrees with ((same | same) | ⟨coded, same⟩) | ⟨coded, same⟩
    · left
      cases name : a.name with
      | none => exact .inl ⟨name, same ▸ name⟩
      | some text => exact .inr ⟨text, .inl name, .inl (same ▸ name)⟩
    · cases name : a.name with
      | none => exact .inr ⟨rfl, same ▸ name⟩
      | some text => exact .inl (.inr ⟨text, .inl name, .inr (same ▸ name)⟩)
    · obtain ⟨text, code⟩ := Option.isSome_iff_exists.mp coded
      exact .inl (.inr ⟨text, .inr code, .inr (same ▸ code)⟩)
    · obtain ⟨text, code⟩ := Option.isSome_iff_exists.mp coded
      exact .inl (.inr ⟨text, .inr code, .inl (same ▸ code)⟩)
  · rcases agrees with (⟨one, two⟩ | ⟨text, one | one, two | two⟩) | ⟨one, two⟩ <;> simp [one, two]

theorem agreesWith_only_iff :
    a.agreesWith b = true ∧ b.agreesWith a = false ↔ a.OneSided b := by
  rw [← Bool.not_eq_true, agreesWith_iff, agreesWith_iff]
  refine ⟨fun only => ?_, fun oneSided => ?_⟩
  · obtain ⟨meets | ⟨nameless, codeless⟩, apart⟩ := only
    · exact absurd (.inl meets.symm) apart
    · refine ⟨nameless, codeless, ?_⟩
      cases name : b.name with
      | none => exact absurd (.inl (.inl ⟨name, nameless⟩)) apart
      | some text =>
        exact ⟨text, rfl, fun code => apart (.inl (.inr ⟨text, .inl name, .inr code⟩))⟩
  · obtain ⟨nameless, codeless, text, named, apart⟩ := oneSided
    refine ⟨.inr ⟨nameless, codeless⟩, fun reversed => ?_⟩
    -- The only text of the second is its name and the only text of the first its code.
    rcases reversed with (⟨none, -⟩ | ⟨shared, one | one, two | two⟩) | ⟨none, -⟩
    · exact Option.some_ne_none text (named.symm.trans none)
    · exact Option.some_ne_none shared (two.symm.trans nameless)
    · exact apart (two.trans (one.symm.trans named))
    · exact Option.some_ne_none shared (one.symm.trans codeless)
    · exact Option.some_ne_none shared (one.symm.trans codeless)
    · exact Option.some_ne_none text (named.symm.trans none)

theorem agreesWith_comm_iff :
    a.agreesWith b = b.agreesWith a ↔ ¬ a.OneSided b ∧ ¬ b.OneSided a := by
  rw [← agreesWith_only_iff, ← agreesWith_only_iff]
  cases a.agreesWith b <;> cases b.agreesWith a <;> simp

end ClassLabel

/-- Walking up a chain gives the same answer whichever side its members are on, exactly if there is
a match in the other direction too wherever a member matches in one direction only. -/
theorem TypeClass.isAncestorOf_eq_iff {a b : TypeClass} :
    a.isAncestorOf b = b.chain.any a.label.agreesWith ↔
      ((∃ member ∈ b.chain, member.OneSided a.label) →
        ∃ member ∈ b.chain, a.label.agreesWith member = true) ∧
      ((∃ member ∈ b.chain, a.label.OneSided member) →
        ∃ member ∈ b.chain, member.agreesWith a.label = true) := by
  rw [Bool.eq_iff_iff, isAncestorOf, List.any_eq_true, List.any_eq_true]
  refine ⟨fun same => ⟨fun oneSided => ?_, fun oneSided => ?_⟩,
    fun ⟨down, up⟩ => ⟨fun matched => ?_, fun matched => ?_⟩⟩
  · obtain ⟨member, inside, only⟩ := oneSided
    exact same.mp ⟨member, inside, (ClassLabel.agreesWith_only_iff.mpr only).1⟩
  · obtain ⟨member, inside, only⟩ := oneSided
    exact same.mpr ⟨member, inside, (ClassLabel.agreesWith_only_iff.mpr only).1⟩
  · obtain ⟨member, inside, agrees⟩ := matched
    cases other : a.label.agreesWith member with
    | true => exact ⟨member, inside, other⟩
    | false => exact down ⟨member, inside, ClassLabel.agreesWith_only_iff.mp ⟨agrees, other⟩⟩
  · obtain ⟨member, inside, agrees⟩ := matched
    cases other : member.agreesWith a.label with
    | true => exact ⟨member, inside, other⟩
    | false => exact up ⟨member, inside, ClassLabel.agreesWith_only_iff.mp ⟨agrees, other⟩⟩

/-- **The order of a comparison.** Whether classes are loosely equal does not depend on which one is
asked, exactly if neither is a class without a name and the other one without a code, whose name is
not the code of the first. Whether a walk up the superclasses of a class finds a match does not
depend on which side they are on, exactly if there is a match in the other direction too wherever
one of them matches in one direction only. -/
theorem TypeClass.looselyEquals_comm_iff (a b : TypeClass) :
    (a.looselyEquals b = b.looselyEquals a ↔
      ¬ a.label.OneSided b.label ∧ ¬ b.label.OneSided a.label) ∧
    (a.isAncestorOf b = b.chain.any a.label.agreesWith ↔
      ((∃ member ∈ b.chain, member.OneSided a.label) →
        ∃ member ∈ b.chain, a.label.agreesWith member = true) ∧
      ((∃ member ∈ b.chain, a.label.OneSided member) →
        ∃ member ∈ b.chain, member.agreesWith a.label = true)) :=
  ⟨ClassLabel.agreesWith_comm_iff, isAncestorOf_eq_iff⟩

/-- A chevron alone is loosely equal to a name alone, which is not loosely equal to it. -/
example :
    let coded : TypeClass := { label := { code := some "«class cfol»" } }
    let named : TypeClass := { label := { name := some "file" } }
    coded.looselyEquals named = true ∧ named.looselyEquals coded = false := by decide

end ScriptBridge
