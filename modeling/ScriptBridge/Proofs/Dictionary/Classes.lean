import ScriptBridge.Bridge.Basic
import ScriptBridge.Proofs.Dictionary.Lineage
import ScriptBridge.Proofs.Value.Outcomes
import ScriptBridge.Proofs.Value.Records
/-!
The classes that a model is built with, and how they are found again.

Building a model gives each declared class its label and, above it, the labels of its lineage, in
whatever order the classes are declared (`build_typeClasses`); that it succeeds means that each
class has a lineage. An application reports a class by its name or by its chevron. In a dictionary
in which neither is shared (`Dictionary.Unambiguous`) a label that holds nothing but spellings of
one class finds that class and no other (`declared?_spelled`), and walking up with the lenient
comparison of labels finds the ancestors of a class (`Unambiguous.isAncestorOf_iff`).
-/
namespace ScriptBridge

/-- Whether a text is the name or the chevron of a class. -/
def ClassEntry.IsSpelled (c : ClassEntry) (text : String) : Prop :=
  c.name = some text ∨ c.chevron? = some text

/-- A label that says nothing but how one class is spelled. -/
structure ClassEntry.Spells (c : ClassEntry) (label : ClassLabel) : Prop where
  name : ∃ text, label.name = some text ∧ c.IsSpelled text
  code : ∀ text, label.code = some text → c.IsSpelled text

theorem ClassEntry.chevron?_isSome {c : ClassEntry} (h : c.code.isSome) : c.chevron?.isSome := by
  rw [chevron?, Option.isSome_map, h]

theorem ClassEntry.code_of_chevron? {c e : ClassEntry} (h : c.chevron? = e.chevron?) :
    c.code = e.code := by
  refine Option.map_injective ?_ h
  intro one two same
  have inner : one.toList ++ "»".toList = two.toList ++ "»".toList := by
    have texts := congrArg String.toList same
    simpa [toString] using texts
  exact String.toList_inj.mp (List.append_cancel_right inner)

namespace Dictionary

/-- A dictionary whose classes have names and codes, none of them twice. -/
structure Distinct (d : Dictionary) : Prop where
  interfaces : (d.classes.map (·.interface)).Nodup
  names : (d.classes.map (·.name)).Nodup
  codes : (d.classes.map (·.code)).Nodup
  complete : ∀ c ∈ d.classes, c.name.isSome ∧ c.code.isSome

/-- A dictionary in which, besides, no name is the chevron of a class. -/
structure Unambiguous (d : Dictionary) : Prop extends Distinct d where
  apart : ∀ c ∈ d.classes, ∀ e ∈ d.classes, c.name ≠ e.chevron?

/-- The label of a declared class. -/
def label (d : Dictionary) (application : String) (c : ClassEntry) : ClassLabel where
  name := c.name
  code := c.chevron?
  application := some application
  interface := some d.interface

/-- A declared class below the classes of its lineage. -/
def typeClass (d : Dictionary) (application : String) (c : ClassEntry) (above : List ClassEntry) :
    TypeClass where
  label := d.label application c
  ancestors := above.map (d.label application)

/-- An entry of the table of classes that is as the dictionary declares it. -/
def Tabulates (d : Dictionary) (application : String) (item : String × TypeClass) : Prop :=
  ∃ c above, c ∈ d.classes ∧ d.Lineage c above ∧
    item = (c.interface, d.typeClass application c above)

/-- An entry of the table of classes that is the first class of its interface, as declared. -/
def Heads (d : Dictionary) (application : String) (item : String × TypeClass) : Prop :=
  ∃ c above, d.class? c.interface = some c ∧ d.Lineage c above ∧
    item = (c.interface, d.typeClass application c above)

variable {d : Dictionary} {application : String} {c e : ClassEntry} {above : List ClassEntry}

theorem chain_typeClass :
    (d.typeClass application c above).chain = (c :: above).map (d.label application) := rfl

theorem Heads.tabulates {item : String × TypeClass} (h : d.Heads application item) :
    d.Tabulates application item := by
  obtain ⟨c, above, hc, lineage, rfl⟩ := h
  exact ⟨c, above, mem_of_class? hc, lineage, rfl⟩

theorem Heads.eq_typeClass (hc : d.class? c.interface = some c) {tc : TypeClass}
    (h : d.Heads application (c.interface, tc)) :
    ∃ above, d.Lineage c above ∧ tc = d.typeClass application c above := by
  obtain ⟨e, above, he, lineage, same⟩ := h
  rw [Prod.mk.injEq] at same
  obtain rfl : c = e := Option.some.inj (hc.symm.trans ((congrArg d.class? same.1).trans he))
  exact ⟨above, lineage, same.2⟩

theorem Unambiguous.eq_of_spelled (hd : d.Unambiguous) (hc : c ∈ d.classes) (he : e ∈ d.classes)
    {text : String} (h₁ : c.IsSpelled text) (h₂ : e.IsSpelled text) : c = e := by
  rcases h₁ with h₁ | h₁ <;> rcases h₂ with h₂ | h₂
  · exact List.inj_on_of_nodup_map hd.names hc he (h₁.trans h₂.symm)
  · exact absurd (h₁.trans h₂.symm) (hd.apart c hc e he)
  · exact absurd (h₂.trans h₁.symm) (hd.apart e he c hc)
  · exact List.inj_on_of_nodup_map hd.codes hc he
      (ClassEntry.code_of_chevron? (h₁.trans h₂.symm))

theorem Unambiguous.spells_label (hd : d.Unambiguous) (hc : c ∈ d.classes) :
    c.Spells (d.label application c) where
  name := by
    obtain ⟨text, name⟩ := Option.isSome_iff_exists.mp (hd.complete c hc).1
    exact ⟨text, name, .inl name⟩
  code := fun _ code => .inr code

/-- Labels of declared classes agree only if they are labels of one class. -/
theorem Unambiguous.agreesWith_iff (hd : d.Unambiguous) (hc : c ∈ d.classes) (he : e ∈ d.classes) :
    (d.label application c).agreesWith (d.label application e) = true ↔ c = e := by
  constructor
  · intro agrees
    obtain ⟨name, hname⟩ := Option.isSome_iff_exists.mp (hd.complete c hc).1
    obtain ⟨code, hcode⟩ :=
      Option.isSome_iff_exists.mp (ClassEntry.chevron?_isSome (hd.complete c hc).2)
    simp only [ClassLabel.agreesWith, label, hname, hcode, Bool.or_eq_true, beq_iff_eq,
      Option.isSome_some, Bool.true_and] at agrees
    rcases agrees with ((same | same) | same) | same
    · exact hd.eq_of_spelled hc he (.inl hname) (.inl same.symm)
    · exact hd.eq_of_spelled hc he (.inl hname) (.inr same.symm)
    · exact hd.eq_of_spelled hc he (.inr hcode) (.inr same.symm)
    · exact hd.eq_of_spelled hc he (.inr hcode) (.inl same.symm)
  · rintro rfl
    simp [ClassLabel.agreesWith]

theorem Unambiguous.isAncestorOf_iff (hd : d.Unambiguous) (hc : c ∈ d.classes) (he : e ∈ d.classes)
    (lineage : d.Lineage c above) (ancestors : List ClassEntry) :
    (d.typeClass application e ancestors).isAncestorOf (d.typeClass application c above) = true ↔
      Relation.ReflTransGen d.Extends c e := by
  have inside : ∀ p ∈ c :: above, p ∈ d.classes := List.forall_mem_cons.mpr ⟨hc, lineage.subset⟩
  rw [← lineage.mem_iff, TypeClass.isAncestorOf, chain_typeClass, List.any_map, List.any_eq_true]
  constructor
  · rintro ⟨p, hp, agrees⟩
    rwa [← (hd.agreesWith_iff (inside p hp) he).mp agrees]
  · intro hmem
    exact ⟨e, hmem, (hd.agreesWith_iff he he).mpr rfl⟩

end Dictionary

namespace Model

open Dictionary

variable {d : Dictionary} {application : String} {c : ClassEntry} {above : List ClassEntry}

/-! ## Building -/

/-- What building one class comes to: it was built before, or it is added below nothing, or it is
added below the class that it extends. -/
theorem typeClassFor_cases {fuel : Nat} {tc : TypeClass} {built after : List (String × TypeClass)}
    (h : typeClassFor d application fuel c built = .ok (tc, after)) :
    (built.lookup c.interface = some tc ∧ after = built) ∨
      (c.superclass = none ∧ tc = .below (d.label application c) none ∧
        after = built ++ [(c.interface, tc)]) ∨
      ∃ p less superclass table, d.Extends c p ∧ fuel = less + 1 ∧
        typeClassFor d application less p built = .ok (superclass, table) ∧
        tc = .below (d.label application c) (some superclass) ∧
        after = table ++ [(c.interface, tc)] := by
  unfold typeClassFor at h
  split at h
  · next existing found =>
    cases h
    exact .inl ⟨found, rfl⟩
  · split at h
    · cases h
    · next less =>
      split at h
      · next none =>
        cases h
        exact .inr (.inl ⟨none, rfl, rfl⟩)
      · next name named =>
        split at h
        · cases h
        · next p found =>
          split at h
          · cases h
          · next superclass table ran =>
            cases h
            exact .inr (.inr ⟨p, less, superclass, table, ⟨name, named, found⟩, rfl, ran, rfl, rfl⟩)

theorem heads_append (hc : d.class? c.interface = some c) (lineage : d.Lineage c above)
    {table : List (String × TypeClass)} (ht : ∀ item ∈ table, d.Heads application item) :
    ∀ item ∈ table ++ [(c.interface, d.typeClass application c above)],
      d.Heads application item := by
  intro item hitem
  rcases List.mem_append.mp hitem with hitem | hitem
  · exact ht item hitem
  · rw [List.mem_singleton.mp hitem]
    exact ⟨c, above, hc, lineage, rfl⟩

theorem typeClassFor_known (fuel : Nat) {built : List (String × TypeClass)} {existing : TypeClass}
    (known : built.lookup c.interface = some existing) :
    typeClassFor d application fuel c built = .ok (existing, built) := by
  unfold typeClassFor
  rw [known]

/-- Building the first class of an interface, or one whose interface is built already, adds first
classes to the table as they are declared, and leaves the interface in it. -/
theorem typeClassFor_heads {fuel : Nat} {c : ClassEntry} {tc : TypeClass}
    {built after : List (String × TypeClass)}
    (hc : d.class? c.interface = some c ∨ c.interface ∈ keys built)
    (hb : ∀ item ∈ built, d.Heads application item)
    (h : typeClassFor d application fuel c built = .ok (tc, after)) :
    (∀ item ∈ after, d.Heads application item) ∧ (c.interface, tc) ∈ after ∧ built ⊆ after := by
  by_cases known : c.interface ∈ keys built
  · obtain ⟨existing, found⟩ := exists_lookup known
    rw [typeClassFor_known fuel found] at h
    cases h
    exact ⟨hb, mem_of_lookup found, List.Subset.refl _⟩
  have first := hc.resolve_right known
  obtain ⟨found, rfl⟩ | ⟨none, rfl, rfl⟩ | ⟨p, less, _, _, hext, fueled, ran, rfl, rfl⟩ :=
    typeClassFor_cases h
  · exact absurd (List.mem_map_of_mem (mem_of_lookup found)) known
  · exact ⟨heads_append first (.top none) hb, List.mem_append_right _ List.mem_cons_self,
      List.subset_append_left _ _⟩
  · -- The superclass is built with less fuel, and is found with its own lineage above it.
    obtain ⟨heads, here, larger⟩ := typeClassFor_heads (.inl hext.first) hb ran
    obtain ⟨above, lineage, rfl⟩ := (heads _ here).eq_typeClass hext.first
    exact ⟨heads_append first (.step hext lineage) heads,
      List.mem_append_right _ List.mem_cons_self, List.subset_append_of_subset_left _ larger⟩
termination_by fuel
decreasing_by omega

/-- When its turn comes, a class is the first of its interface, or its interface was built before. -/
theorem first_or_built {before after : List ClassEntry} (split : d.classes = before ++ c :: after)
    {built : List (String × TypeClass)} (covered : ∀ e ∈ before, e.interface ∈ keys built) :
    d.class? c.interface = some c ∨ c.interface ∈ keys built := by
  by_cases earlier : ∃ e ∈ before, e.interface = c.interface
  · obtain ⟨e, he, same⟩ := earlier
    exact .inr (same ▸ covered e he)
  · left
    rw [Dictionary.class?, split, List.find?_append]
    have none : before.find? (·.interface = c.interface) = none :=
      List.find?_eq_none.mpr fun e he same => earlier ⟨e, he, of_decide_eq_true same⟩
    rw [none, Option.none_or]
    exact List.find?_cons_of_pos (decide_eq_true rfl)

theorem foldlM_heads {before classes : List ClassEntry} (split : d.classes = before ++ classes)
    {fuel : Nat} {built after : List (String × TypeClass)}
    (covered : ∀ e ∈ before, e.interface ∈ keys built)
    (hb : ∀ item ∈ built, d.Heads application item)
    (h : classes.foldlM (fun built entry =>
      (typeClassFor d application fuel entry built).map (·.2)) built = .ok after) :
    (∀ item ∈ after, d.Heads application item) ∧ ∀ e ∈ d.classes, e.interface ∈ keys after := by
  induction classes generalizing before built with
  | nil =>
    cases h
    rw [List.append_nil] at split
    exact ⟨hb, split ▸ covered⟩
  | cons c classes ih =>
    rw [List.foldlM_cons] at h
    obtain ⟨_, first, rest⟩ := ok_of_bind h
    obtain ⟨result, ran, rfl⟩ := ok_of_map first
    obtain ⟨heads, here, larger⟩ := typeClassFor_heads (first_or_built split covered) hb ran
    have moved : d.classes = (before ++ [c]) ++ classes := by
      rw [split, List.append_assoc]
      rfl
    refine ih moved ?_ heads rest
    intro e he
    rcases List.mem_append.mp he with he | he
    · exact List.map_subset _ larger (covered e he)
    · rw [List.mem_singleton.mp he]
      exact List.mem_map_of_mem here

theorem of_build {m : Model} (h : build d application = .ok m) :
    ∃ typeClasses, buildTypeClasses d application = .ok typeClasses ∧
      m = { application, dictionary := d, typeClasses,
            methods := d.classes.flatMap (methodEntries d),
            properties :=
              (d.classes.map fun entry => (entry.interface, propertyEntries entry)).reverse } := by
  unfold build at h
  split at h
  · cases h
  · obtain ⟨typeClasses, table, rfl⟩ := ok_of_map h
    exact ⟨typeClasses, table, rfl⟩

theorem build_dictionary {m : Model} (h : build d application = .ok m) : m.dictionary = d := by
  obtain ⟨_, -, rfl⟩ := of_build h
  rfl

/-- The table of a model holds the first class of each declared interface, and nothing else. -/
theorem build_heads {m : Model} (h : build d application = .ok m) :
    (∀ item ∈ m.typeClasses, d.Heads application item) ∧
      ∀ c ∈ d.classes, c.interface ∈ keys m.typeClasses := by
  obtain ⟨typeClasses, table, rfl⟩ := of_build h
  exact foldlM_heads (List.nil_append _).symm (fun _ he => absurd he List.not_mem_nil)
    (fun _ hi => absurd hi List.not_mem_nil) table

/-- The table of a model holds each declared class below its lineage, and nothing else. -/
theorem build_typeClasses (hd : (d.classes.map (·.interface)).Nodup) {m : Model}
    (h : build d application = .ok m) :
    (∀ item ∈ m.typeClasses, d.Tabulates application item) ∧
      ∀ c ∈ d.classes, ∃ above, d.Lineage c above ∧
        (c.interface, d.typeClass application c above) ∈ m.typeClasses := by
  obtain ⟨heads, complete⟩ := build_heads h
  refine ⟨fun item hi => (heads item hi).tabulates, fun c hc => ?_⟩
  obtain ⟨tc, found⟩ := exists_lookup (complete c hc)
  have here := mem_of_lookup found
  obtain ⟨above, lineage, rfl⟩ := (heads _ here).eq_typeClass (class?_interface hd hc)
  exact ⟨above, lineage, here⟩

/-! ## Finding a class -/

theorem isDeclaredAs_self {tc : TypeClass} :
    isDeclaredAs tc tc = true ↔ tc.label.name.isSome ∨ tc.label.code.isSome := by
  simp only [isDeclaredAs, Bool.or_eq_true, Bool.and_eq_true, beq_self_eq_true, and_true,
    beq_iff_eq]
  constructor
  · rintro ((code | name) | ⟨code, -⟩)
    · exact .inr code
    · exact .inl name
    · exact .inr code
  · rintro (name | code)
    · exact .inl (.inr name)
    · exact .inl (.inl code)

theorem isDeclaredAs_self_of {tc other : TypeClass} (h : isDeclaredAs tc other = true) :
    isDeclaredAs tc tc = true := by
  rw [isDeclaredAs_self]
  simp only [isDeclaredAs, Bool.or_eq_true, Bool.and_eq_true] at h
  rcases h with (⟨code, -⟩ | ⟨name, -⟩) | ⟨code, -⟩
  · exact .inr code
  · exact .inl name
  · exact .inr code

theorem of_declared? {m : Model} {other : TypeClass} {item : String × TypeClass}
    (found : m.declared? other = some item) :
    item ∈ m.typeClasses ∧ isDeclaredAs item.2 other = true := by
  unfold declared? at found
  exact ⟨List.mem_of_find?_eq_some found, by simpa using List.find?_some found⟩

theorem exists_declared? {m : Model} {other : TypeClass} {item : String × TypeClass}
    (inside : item ∈ m.typeClasses) (named : isDeclaredAs item.2 other = true) :
    ∃ chosen, m.declared? other = some chosen :=
  Option.isSome_iff_exists.mp (List.find?_isSome.mpr ⟨item, inside, named⟩)

/-! ## Finding a class by a spelling -/

section
variable (hd : d.Unambiguous) (hc : c ∈ d.classes) {other : TypeClass} (ho : c.Spells other.label)
include hd hc ho

theorem isDeclaredAs_iff {e : ClassEntry} (he : e ∈ d.classes) (above : List ClassEntry) :
    isDeclaredAs (d.typeClass application e above) other = true ↔ e = c := by
  obtain ⟨text, name, spelled⟩ := ho.name
  constructor
  · intro same
    simp only [isDeclaredAs, typeClass, label, name, Bool.or_eq_true, Bool.and_eq_true,
      beq_iff_eq] at same
    rcases same with (⟨some, same⟩ | ⟨-, same⟩) | ⟨-, same⟩
    · obtain ⟨code, hcode⟩ := Option.isSome_iff_exists.mp some
      exact hd.eq_of_spelled he hc (.inr hcode) (ho.code code (same.symm.trans hcode))
    · exact hd.eq_of_spelled he hc (.inl same) spelled
    · exact hd.eq_of_spelled he hc (.inr same) spelled
  · rintro rfl
    rcases spelled with same | same
    · simp [isDeclaredAs, typeClass, label, name, same]
    · simp [isDeclaredAs, typeClass, label, name, same]

variable {m : Model} (h : build d application = .ok m)
include h

/-- A class is found by a label that spells it. -/
theorem declared?_spelled (lineage : d.Lineage c above) :
    m.declared? other = some (c.interface, d.typeClass application c above) := by
  obtain ⟨tabulated, complete⟩ := build_typeClasses hd.interfaces h
  obtain ⟨_, -, here⟩ := complete c hc
  obtain ⟨item, found⟩ := exists_declared? here ((isDeclaredAs_iff hd hc ho hc _).mpr rfl)
  obtain ⟨inside, named⟩ := of_declared? found
  obtain ⟨e, above', he, lineage', rfl⟩ := tabulated item inside
  obtain rfl := (isDeclaredAs_iff hd hc ho he above').mp named
  rw [found, lineage.unique lineage']

theorem interfaceFor?_spelled : m.interfaceFor? other = some c.interface := by
  obtain ⟨above, lineage, -⟩ := (build_typeClasses hd.interfaces h).2 c hc
  rw [interfaceFor?, declared?_spelled hd hc ho h lineage]
  rfl

end
end Model

open Dictionary

/-- An application is registered with a dictionary. -/
def Registry.Holds (r : Registry) (d : Dictionary) (application : String) : Prop :=
  ∃ m, r.get? application = some m ∧ Model.build d application = .ok m

theorem Registry.Holds.exists_lineage {r : Registry} {d : Dictionary} {application : String}
    (hr : r.Holds d application) (hd : (d.classes.map (·.interface)).Nodup) {c : ClassEntry}
    (hc : c ∈ d.classes) : ∃ above, d.Lineage c above := by
  obtain ⟨m, -, built⟩ := hr
  obtain ⟨above, lineage, -⟩ := (Model.build_typeClasses hd built).2 c hc
  exact ⟨above, lineage⟩

theorem Registry.register_new {r : Registry} {application : String} (d : Dictionary)
    (new : r.get? application = none) :
    r.register d application = (Model.build d application).map fun m =>
      (m, { models := r.models ++ [(application, m)] }) := by
  rw [register, new]

theorem Registry.build_of_register {r after : Registry} {d : Dictionary} {application : String}
    {m : Model} (new : r.get? application = none)
    (registered : r.register d application = .ok (m, after)) :
    Model.build d application = .ok m ∧ after = { models := r.models ++ [(application, m)] } := by
  rw [register_new d new] at registered
  obtain ⟨m, built, same⟩ := ok_of_map registered
  cases same
  exact ⟨built, rfl⟩

/-- What an application declares is found in its own model. -/
theorem Registry.resolve?_own {r : Registry} {application interface : String} {m : Model}
    (got : r.get? application = some m) (declared : (m.dictionary.class? interface).isSome) :
    r.resolve? (some application) interface = some m := by
  unfold resolve?
  dsimp only
  rw [Option.bind_some, got, Option.filter_some, if_pos declared]

/-- A dictionary that an application is first registered with is held from then on. -/
theorem Registry.holds_of_register {r after : Registry} {d : Dictionary} {application : String}
    {m : Model} (hn : r.get? application = none) (h : r.register d application = .ok (m, after)) :
    after.Holds d application := by
  obtain ⟨built, rfl⟩ := build_of_register hn h
  refine ⟨m, ?_, built⟩
  rw [get?] at hn ⊢
  rw [List.lookup_append, hn, Option.none_or, List.lookup_cons_self]

theorem Bridge.intern_spelled {b : Bridge} {d : Dictionary} {application : String} {c : ClassEntry}
    {above : List ClassEntry} {other : TypeClass} (hb : b.applications.Holds d application)
    (hd : d.Unambiguous) (hc : c ∈ d.classes) (lineage : d.Lineage c above)
    (ho : c.Spells other.label) (happ : other.label.application = some application) :
    b.intern other = (d.typeClass application c above, b) := by
  obtain ⟨m, got, built⟩ := hb
  have found : b.applications.findDeclared other = .declared (d.typeClass application c above) := by
    simp only [Registry.findDeclared, happ, got, Model.declaredTypeClass?,
      Model.declared?_spelled hd hc ho built lineage, Option.map_some]
  simp only [intern, internTypeClass, internWarning?, happ, Registry.intern, found]

end ScriptBridge
