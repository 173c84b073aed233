import ScriptBridge.Proofs.Dictionary.Classes
/-!
Reported classes and the declared ones they are taken for.

An application knows a class that is reported by a comparison of its own (`Model.isDeclaredAs`), and
a walk up the superclasses uses the lenient one (`TypeClass.looselyEquals`). For a declared class
with a name and a code the two differ in one clause: the lenient comparison also takes the name of
the declared class where the reported one has its code (`looselyEquals_iff`). So a class that is
loosely equal to one declared class only is interned as that class, unless this clause is all that
they agree in; then it is given back as it was reported (`Registry.intern_match`).
-/
namespace ScriptBridge

namespace Model

open Dictionary

/-- A declared class that loosely equals a reported one, and no other does. -/
structure SoleMatch (m : Model) (declared reported : TypeClass) : Prop where
  equals : declared.looselyEquals reported = true
  sole : ∀ interface other, m.typeClass? interface = some other →
    other.looselyEquals reported = true → other = declared

variable {d : Dictionary} {application interface : String} {m : Model}
  {declared reported : TypeClass}

/-! ## The two comparisons -/

/-- A reported class is taken for a declared one with a name and a code, if it has the one or the
other for its name or the code for its code. -/
theorem isDeclaredAs_iff_label (named : declared.label.name.isSome)
    (coded : declared.label.code.isSome) :
    isDeclaredAs declared reported = true ↔
      reported.label.name = declared.label.name ∨ reported.label.name = declared.label.code ∨
        reported.label.code = declared.label.code := by
  simp only [isDeclaredAs, named, coded, Bool.true_and, Bool.or_eq_true, beq_iff_eq]
  refine ⟨fun taken => ?_, fun taken => ?_⟩
  · rcases taken with (code | name) | crossed
    · exact .inr (.inr code.symm)
    · exact .inl name.symm
    · exact .inr (.inl crossed.symm)
  · rcases taken with name | crossed | code
    · exact .inl (.inr name.symm)
    · exact .inr crossed.symm
    · exact .inl (.inl code.symm)

/-- The lenient comparison has one clause more. -/
theorem looselyEquals_iff (named : declared.label.name.isSome)
    (coded : declared.label.code.isSome) :
    declared.looselyEquals reported = true ↔
      isDeclaredAs declared reported = true ∨ reported.label.code = declared.label.name := by
  simp only [isDeclaredAs, TypeClass.looselyEquals, ClassLabel.agreesWith, named, coded,
    Bool.true_and, Bool.or_eq_true, beq_iff_eq]
  refine ⟨fun equal => ?_, fun equal => ?_⟩
  · rcases equal with ((name | reversed) | code) | crossed
    · exact .inl (.inl (.inr name))
    · exact .inr reversed.symm
    · exact .inl (.inl (.inl code))
    · exact .inl (.inr crossed)
  · rcases equal with ((code | name) | crossed) | reversed
    · exact .inl (.inr code)
    · exact .inl (.inl (.inl name))
    · exact .inr crossed
    · exact .inl (.inl (.inr reversed.symm))

/-! ## Declared classes -/

theorem exists_typeClass? (h : build d application = .ok m) {c : ClassEntry} (hc : c ∈ d.classes) :
    ∃ declared, m.typeClass? c.interface = some declared :=
  exists_lookup ((build_heads h).2 c hc)

theorem typeClass?_heads (h : build d application = .ok m)
    (found : m.typeClass? interface = some declared) : d.Heads application (interface, declared) :=
  (build_heads h).1 _ (mem_of_lookup found)

theorem typeClass?_of_mem (h : build d application = .ok m) {item : String × TypeClass}
    (inside : item ∈ m.typeClasses) : m.typeClass? item.1 = some item.2 := by
  obtain ⟨other, found⟩ := exists_lookup (List.mem_map_of_mem inside)
  obtain ⟨c, above, first, lineage, rfl⟩ := (build_heads h).1 item inside
  obtain ⟨above', lineage', rfl⟩ := (typeClass?_heads h found).eq_typeClass first
  rw [typeClass?, found, lineage.unique lineage']

theorem label_complete (h : build d application = .ok m)
    (complete : ∀ c ∈ d.classes, c.name.isSome ∧ c.code.isSome)
    (found : m.typeClass? interface = some declared) :
    declared.label.name.isSome ∧ declared.label.code.isSome := by
  obtain ⟨c, above, first, -, same⟩ := typeClass?_heads h found
  obtain ⟨named, coded⟩ := complete c (mem_of_class? first)
  cases same
  exact ⟨named, ClassEntry.chevron?_isSome coded⟩

section
variable (h : build d application = .ok m)
  (complete : ∀ c ∈ d.classes, c.name.isSome ∧ c.code.isSome)
  (known : m.typeClass? interface = some declared) (alone : m.SoleMatch declared reported)
include h complete alone

/-- What is found for a reported class is the only declared class that loosely equals it. -/
theorem eq_of_declared? {item : String × TypeClass} (chosen : m.declared? reported = some item) :
    item.2 = declared := by
  obtain ⟨inside, named⟩ := of_declared? chosen
  have found := typeClass?_of_mem h inside
  obtain ⟨name, code⟩ := label_complete h complete found
  exact alone.sole item.1 item.2 found ((looselyEquals_iff name code).mpr (.inl named))

include known

theorem declaredTypeClass?_soleMatch :
    m.declaredTypeClass? reported =
      if isDeclaredAs declared reported = true then some declared else none := by
  rw [declaredTypeClass?]
  split
  · next named =>
    obtain ⟨item, chosen⟩ := exists_declared? (mem_of_lookup known) named
    rw [chosen, Option.map_some, eq_of_declared? h complete alone chosen]
  · next unnamed =>
    cases chosen : m.declared? reported with
    | none => rfl
    | some item =>
      obtain ⟨-, named⟩ := of_declared? chosen
      rw [eq_of_declared? h complete alone chosen] at named
      exact absurd named unnamed

end
end Model

/-- **Interning what loosely equals a declared class.** In a registered application whose classes
have names and codes, each declared class is known by its interface, with the name and the chevron
of the first class of that interface. If it is the only one that loosely equals a class reported by
the application, then the reported class is interned as the declared one exactly if its name is the
name or the code of the declared one or its code is that code. Otherwise its code is the name of the
declared class, and it is interned as itself. -/
theorem Registry.intern_match {r : Registry} {d : Dictionary} {application : String} {m : Model}
    (got : r.get? application = some m) (built : Model.build d application = .ok m)
    (complete : ∀ c ∈ d.classes, c.name.isSome ∧ c.code.isSome)
    {c : ClassEntry} (hc : c ∈ d.classes) (reported : TypeClass)
    (owned : reported.label.application = some application) :
    ∃ declared, m.typeClass? c.interface = some declared ∧
      (d.class? c.interface = some c → declared.label = d.label application c) ∧
      (m.SoleMatch declared reported →
        (r.intern reported = declared ↔
          reported.label.name = declared.label.name ∨ reported.label.name = declared.label.code ∨
            reported.label.code = declared.label.code) ∧
        (r.intern reported ≠ declared →
          reported.label.code = declared.label.name ∧ r.intern reported = reported)) := by
  obtain ⟨declared, known⟩ := Model.exists_typeClass? built hc
  refine ⟨declared, known, fun first => ?_, fun alone => ?_⟩
  · obtain ⟨above, -, rfl⟩ := (Model.typeClass?_heads built known).eq_typeClass first
    rfl
  obtain ⟨named, coded⟩ := Model.label_complete built complete known
  have interned : r.intern reported =
      if Model.isDeclaredAs declared reported = true then declared else reported := by
    simp only [Registry.intern, findDeclared, owned, got,
      Model.declaredTypeClass?_soleMatch built complete known alone]
    cases Model.isDeclaredAs declared reported <;> rfl
  rw [interned, ← Model.isDeclaredAs_iff_label named coded]
  split
  · next taken => exact ⟨by simp [taken], fun other => absurd rfl other⟩
  · next other =>
    -- What the class is loosely equal by is the one clause that the other comparison lacks.
    have reversed := ((Model.looselyEquals_iff named coded).mp alone.equals).resolve_left other
    refine ⟨⟨fun same => ?_, fun taken => absurd taken other⟩, fun _ => ⟨reversed, rfl⟩⟩
    rw [same]
    exact Model.isDeclaredAs_self.mpr (.inl named)

namespace Crossed

/-- An application with folders and files. -/
def dictionary : Dictionary where
  interface := "Finder"
  classes := [
    { interface := "Finder", name := some "application", code := some "capp" },
    { interface := "Folder", name := some "folder", code := some "cfol" },
    { interface := "File", name := some "file", code := some "file" }]

def finder : String := "application \"Finder\""

/-- The registry after the application is registered. -/
def registry : Registry := (Registry.register {} dictionary finder).toOption.elim {} (·.2)

/-- The model of the application. -/
def model : Model := (registry.get? finder).getD default

/-- The folder as it is declared. -/
def folder : TypeClass := dictionary.typeClass finder dictionary.classes[1] []

/-- A class that the application reports by what it takes for a code. -/
def coded (code : String) : TypeClass := { label := { code, application := finder } }

theorem folder_soleMatch {code : String} (equals : folder.looselyEquals (coded code) = true)
    (sole : ∀ item ∈ model.typeClasses,
      item.2.looselyEquals (coded code) = true → item.2 = folder) :
    model.SoleMatch folder (coded code) :=
  ⟨equals, fun _ _ found same => sole _ (mem_of_lookup found) same⟩

/-- The folder is known by its chevron, and not by its name in the place of the chevron. -/
theorem folder_coded :
    registry.intern (coded "«class cfol»") = folder ∧
      folder.looselyEquals (coded "folder") = true ∧ registry.intern (coded "folder") ≠ folder ∧
      registry.intern (coded "folder") = coded "folder" := by
  have chevron : model.SoleMatch folder (coded "«class cfol»") :=
    folder_soleMatch (by decide) (by decide)
  have name : model.SoleMatch folder (coded "folder") := folder_soleMatch (by decide) (by decide)
  have inside : dictionary.classes[1] ∈ dictionary.classes := by decide
  obtain ⟨declared, known, -, byChevron⟩ := Registry.intern_match (r := registry) (m := model) rfl
    rfl (by decide) inside (coded "«class cfol»") rfl
  obtain ⟨declared', known', -, byName⟩ := Registry.intern_match (r := registry) (m := model) rfl
    rfl (by decide) inside (coded "folder") rfl
  cases known
  cases known'
  have other : registry.intern (coded "folder") ≠ folder := by
    intro same
    exact absurd ((byName name).1.mp same) (by decide)
  exact ⟨(byChevron chevron).1.mpr (by decide), name.equals, other, ((byName name).2 other).2⟩

end Crossed
end ScriptBridge
