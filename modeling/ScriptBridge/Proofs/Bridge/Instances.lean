import ScriptBridge.Proofs.Bridge.Calls
import ScriptBridge.Proofs.Codec.Leaves
import ScriptBridge.Proofs.Dictionary.Classes
import ScriptBridge.Proofs.Text.Trim
/-!
Instance checks follow the declared hierarchy.

A class is asked for by its name or its chevron, and an application reports the class of an object
in either way too. In a dictionary whose names can be told from everything else that an answer may
be (`Dictionary.Reportable`), what is asked for and what is reported are both replaced by the
declared classes, and walking up from the one to the other decides whether the dictionary declares
the one above the other (`isInstanceOf_iff`).
-/
namespace ScriptBridge

open Dictionary

/-! ## Spellings as answers -/

/-- A dictionary with names that are not mistaken for a chevron or for no answer at all. -/
structure Dictionary.Reportable (d : Dictionary) : Prop extends Distinct d where
  trimmed : ∀ c ∈ d.classes, ∀ name ∈ c.name, Text.trimmed name = name
  present : ∀ c ∈ d.classes, ∀ name ∈ c.name, name ≠ "" ∧ name ≠ "null" ∧ name ≠ "missing value"
  unquoted : ∀ c ∈ d.classes, ∀ name ∈ c.name, name.toList.head? ≠ some '«'

theorem ClassEntry.toList_chevron {c : ClassEntry} {text : String} (h : c.chevron? = some text) :
    ∃ inner, text.toList = '«' :: inner ++ ['»'] := by
  obtain ⟨code, -, rfl⟩ := Option.map_eq_some_iff.mp h
  exact ⟨"class ".toList ++ code.toList, by simp [toString]⟩

namespace Dictionary.Reportable

variable {d : Dictionary} (hd : d.Reportable) {c : ClassEntry} (hc : c ∈ d.classes) {text : String}
include hd

theorem unambiguous : d.Unambiguous where
  toDistinct := hd.toDistinct
  apart := by
    intro c hc e _ same
    obtain ⟨name, hname⟩ := Option.isSome_iff_exists.mp (hd.complete c hc).1
    obtain ⟨inner, quoted⟩ := ClassEntry.toList_chevron (same.symm.trans hname)
    exact hd.unquoted c hc name hname (by rw [quoted]; rfl)

include hc

theorem trimmed_spelled (h : c.IsSpelled text) : Text.trimmed text = text := by
  rcases h with name | chevron
  · exact hd.trimmed c hc text name
  · obtain ⟨inner, quoted⟩ := ClassEntry.toList_chevron chevron
    have tight : Text.Tight text.toList := by
      rw [quoted]
      exact Text.Tight.of_ends (by decide) (by decide) inner
    rw [Text.trimmed, tight.trim_eq, String.ofList_toList]

theorem isMissing_spelled (h : c.IsSpelled text) : isMissing (some text) = false := by
  have present : text ≠ "" ∧ text ≠ "null" ∧ text ≠ missingValue := by
    rcases h with name | chevron
    · exact hd.present c hc text name
    · obtain ⟨inner, quoted⟩ := ClassEntry.toList_chevron chevron
      have other {word : String} (hw : word.toList.head? ≠ some '«') : text ≠ word := by
        rintro rfl
        exact hw (by rw [quoted]; rfl)
      exact ⟨other (by decide), other (by decide), other (by decide)⟩
  simp [isMissing, hd.trimmed_spelled hc h, present]

theorem ofAnswer_spells (h : c.IsSpelled text) (application : Option String) :
    c.Spells (TypeClass.ofAnswer text application).label where
  name := ⟨text, congrArg some (hd.trimmed_spelled hc h), h⟩
  code := by
    intro code hcode
    rw [TypeClass.ofAnswer, hd.trimmed_spelled hc h] at hcode
    dsimp only at hcode
    split at hcode
    · rwa [← Option.some.inj hcode]
    · cases hcode

end Dictionary.Reportable

/-! ## Classes that are reported -/

namespace Call

section
variable {scene : Scene} {d : Dictionary} {application locale : String} {c : ClassEntry}
  (hb : scene.bridge.applications.Holds d application) (hd : d.Reportable) (hc : c ∈ d.classes)

include hd hc in
theorem read_spelled (happ : scene.handler.application = some application)
    (codecs : scene.bridge.codecList = Codec.builtin locale) {text : String}
    (h : c.IsSpelled text) :
    scene.read .typeClass text = .ok (.typeClass (.ofAnswer text (some application))) := by
  have found : Codec.find? (Codec.builtin locale) .typeClass = some Codec.typeClass := rfl
  rw [Scene.read, Bridge.decode, codecs]
  refine Codec.decodeAs_of_codec found ?_ _
  rw [Codec.typeClass, happ]
  exact if_neg (by rw [hd.isMissing_spelled hc h]; exact Bool.false_ne_true)

include hb hd hc in
theorem run_objectClass_spelled {above : List ClassEntry} (lineage : d.Lineage c above)
    (happ : scene.handler.application = some application)
    (codecs : scene.bridge.codecList = Codec.builtin locale) (alone : scene.session = none)
    (fresh : scene.handler.known = none) {answer : String} (h : c.IsSpelled answer)
    (answered : scene.Answers ("return class" ++ scene.handler.ofClause) answer) :
    (objectClass.run scene).1 = .ok (d.typeClass application c above) := by
  obtain ⟨b, history, ran, continued, -⟩ :=
    run_execute_answered alone answered (rfl : ValueType.typeClass.isVoid = false)
  have held : b.applications.Holds d application := by rwa [continued.applications]
  rw [read_spelled hd hc happ codecs h] at ran
  have interned : (intern _).run { scene with bridge := b } = _ :=
    run_intern_spelled held hd.unambiguous hc lineage (hd.ofAnswer_spells hc h _) rfl
  simp only [objectClass, run_bind, run_handler, fresh, ran, interned, run_modify, run_pure]

end
end Call

/-- **Instance checks follow the declared hierarchy.** For a class asked for by one of its spellings
and an object whose class is reported by one of its spellings, the check succeeds and says whether
the class that is asked for is the object's class or one of its ancestors. -/
theorem isInstanceOf_iff {scene : Scene} {d : Dictionary} {application locale : String}
    {c e : ClassEntry} {answer query : String}
    (registered : scene.bridge.applications.Holds d application) (reportable : d.Reportable)
    (codecs : scene.bridge.codecList = Codec.builtin locale)
    (hc : c ∈ d.classes) (he : e ∈ d.classes)
    (happ : scene.handler.application = some application)
    (alone : scene.session = none) (fresh : scene.handler.known = none)
    (answered : scene.Answers ("return class" ++ scene.handler.ofClause) answer)
    (hanswer : c.IsSpelled answer) (hquery : e.IsSpelled query) :
    ∃ verdict,
      ((Call.isInstanceOf (.ofAnswer query (some application))).run scene).1 = .ok verdict ∧
      (verdict = true ↔ Relation.ReflTransGen d.Extends c e) := by
  obtain ⟨above, lineage⟩ := registered.exists_lineage reportable.interfaces hc
  obtain ⟨above', lineage'⟩ := registered.exists_lineage reportable.interfaces he
  have wanted := Call.run_intern_spelled registered reportable.unambiguous he lineage'
    (reportable.ofAnswer_spells he hquery (some application)) rfl
  have actual := Call.run_objectClass_spelled registered reportable hc lineage happ codecs alone
    fresh hanswer answered
  refine ⟨(d.typeClass application e above').isAncestorOf (d.typeClass application c above), ?_,
    reportable.unambiguous.isAncestorOf_iff hc he lineage above'⟩
  -- Interning what is asked for leaves the scene as it is, so the application is asked in the same.
  cases ran : Call.objectClass.run scene with
  | mk result after =>
    rw [ran] at actual
    obtain rfl : result = _ := actual
    rw [Call.isInstanceOf, Call.run_bind_ok wanted, Call.run_bind_ok ran, Call.run_pure]

namespace Folders

/-- An application with classes below one another. -/
def dictionary : Dictionary where
  interface := "Finder"
  classes := [
    { interface := "Folder", name := some "folder", code := some "cfol",
      superclass := some "Container" },
    { interface := "Finder", name := some "application", code := some "capp" },
    { interface := "Item", name := some "item", code := some "cobj" },
    { interface := "Container", name := some "container", code := some "ctnr",
      superclass := some "Item" }]

def finder : String := "application \"Finder\""

/-- A bridge that knows the application, which will answer with the name of a class. -/
def scene : Scene where
  bridge := ((Bridge.new (Config.default none) (.rehearsal [.answers "folder"])).register
    dictionary "Finder").2
  session := none
  handler := { object := { interface := "Item", reference := ⟨some "item 1", some finder⟩ },
               reduces := true }

theorem reportable : dictionary.Reportable where
  interfaces := by decide
  names := by decide
  codes := by decide
  complete := by decide
  trimmed := by decide +kernel
  present := by decide
  unquoted := by decide +kernel

theorem registered : scene.bridge.applications.Holds dictionary finder :=
  Registry.holds_of_register (r := {}) rfl rfl

/-- A folder is an item, asked for by the chevron, and no application, asked for by the name. -/
theorem isInstanceOf_folder :
    ((Call.isInstanceOf (.ofAnswer "«class cobj»" (some finder))).run scene).1 = .ok true ∧
      ((Call.isInstanceOf (.ofAnswer "application" (some finder))).run scene).1 = .ok false := by
  have lineage : dictionary.Lineage dictionary.classes[0]
      [dictionary.classes[3], dictionary.classes[2]] :=
    .step ⟨"Container", rfl, rfl⟩ (.step ⟨"Item", rfl, rfl⟩ (.top rfl))
  have reported : dictionary.classes[0].IsSpelled "folder" := .inl rfl
  have item : dictionary.classes[2].IsSpelled "«class cobj»" := .inr rfl
  have application : dictionary.classes[1].IsSpelled "application" := .inl rfl
  constructor
  · obtain ⟨verdict, ran, holds⟩ := isInstanceOf_iff registered reportable rfl (by decide)
      (by decide) rfl rfl rfl (by rfl) reported item
    rw [← lineage.mem_iff] at holds
    rw [ran, holds.mpr (by decide)]
  · obtain ⟨verdict, ran, holds⟩ := isInstanceOf_iff registered reportable rfl (by decide)
      (by decide) rfl rfl rfl (by rfl) reported application
    rw [← lineage.mem_iff] at holds
    rw [ran, Bool.eq_false_iff.mpr fun isTrue => absurd (holds.mp isTrue) (by decide)]

end Folders

end ScriptBridge
