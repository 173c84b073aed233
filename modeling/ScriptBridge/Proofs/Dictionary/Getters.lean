import ScriptBridge.Proofs.Dictionary.Founded
import ScriptBridge.Proofs.Dictionary.Properties
/-!
Getters and the properties that they declare.

The table of methods and the index of properties are built from the same getters by different rules.
Of several classes of one interface the table of methods holds the methods of all, and what each of
them inherits; the index holds what the last one declares. So a getter can be called whose property
is not found. It is found exactly if the last class of some interface along the chain declares a
property of its name (`property?_of_getter_iff`), and always if the interfaces of the chain have one
class each.
-/
namespace ScriptBridge

theorem Method.exists_property {getter : Method} {name : String} (kind : getter.kind = .property)
    (reads : getter.isGetter = true) (named : getter.scriptName = some name) :
    ∃ p, getter.property? = some p ∧ p.scriptName = name := by
  rw [property?, if_pos ⟨kind, reads⟩, named]
  exact ⟨_, rfl, rfl⟩

theorem ClassEntry.ownProperty?_isSome {c : ClassEntry} {getter : Method} {p : Property}
    (inside : getter ∈ c.methods) (declared : getter.property? = some p) :
    (c.ownProperty? p.scriptName).isSome := by
  have here : p ∈ (c.methods.filterMap Method.property?).reverse :=
    List.mem_reverse.mpr (List.mem_filterMap.mpr ⟨getter, inside, declared⟩)
  exact List.find?_isSome.mpr ⟨p, here, by simp [Property.isUnder]⟩

namespace Model

open Dictionary

variable {d : Dictionary} {application interface : String} {m : Model}

/-- A method is declared by a class of its interface or by one that such a class inherits from. -/
theorem declared_of_method? (h : build d application = .ok m) {name : String} {method : Method}
    (found : m.method? interface name = some method) :
    ∃ entry ∈ d.classes, entry.interface = interface ∧
      ∃ declaring ∈ Model.lineage d (d.classes.length + 1) entry, method ∈ declaring.methods := by
  obtain ⟨_, -, rfl⟩ := of_build h
  obtain ⟨before, after, split, -⟩ := List.lookup_eq_some_iff.mp found
  have listed : ((interface, name), method) ∈ d.classes.flatMap (methodEntries d) := by
    rw [show d.classes.flatMap (methodEntries d) = _ from split]
    exact List.mem_append_right _ List.mem_cons_self
  obtain ⟨entry, inside, held⟩ := List.mem_flatMap.mp listed
  obtain ⟨declaring, above, own⟩ := List.mem_flatMap.mp held
  obtain ⟨method', declared, same⟩ := List.mem_map.mp own
  simp only [Prod.mk.injEq] at same
  obtain ⟨⟨rfl, -⟩, rfl⟩ := same
  exact ⟨entry, inside, rfl, declaring, above, declared⟩

theorem interfaceFor?_self {tc : TypeClass} (typed : m.typeClass? interface = some tc)
    (labelled : tc.label.name.isSome ∨ tc.label.code.isSome)
    (apart : ∀ other ∈ m.typeClasses, other.1 ≠ interface → isDeclaredAs other.2 tc = false) :
    m.interfaceFor? tc = some interface := by
  obtain ⟨item, found⟩ :=
    exists_declared? (mem_of_lookup typed) (isDeclaredAs_self.mpr labelled)
  rw [interfaceFor?, found, Option.map_some]
  obtain ⟨inside, named⟩ := of_declared? found
  by_contra other
  rw [apart item inside fun same => other (congrArg some same)] at named
  cases named

end Model

/-- **When the property of a getter is found.** Of an interface whose class is mistaken for no
other, the property that a getter reads is found exactly if the last class of the interface or of
one above it declares a property of that name. It is found whenever each of these interfaces has
one class only. -/
theorem property?_of_getter_iff {r after : Registry} {d : Dictionary} {application : String}
    {m : Model} (new : r.get? application = none)
    (registered : r.register d application = .ok (m, after)) {interface : String} {tc : TypeClass}
    (typed : m.typeClass? interface = some tc)
    (labelled : tc.label.name.isSome ∨ tc.label.code.isSome)
    (apart : ∀ other ∈ m.typeClasses, other.1 ≠ interface → Model.isDeclaredAs other.2 tc = false)
    {method name : String} {getter : Method} (found : m.method? interface method = some getter)
    (kind : getter.kind = .property) (reads : getter.isGetter = true)
    (named : getter.scriptName = some name) :
    ∃ c above, d.class? interface = some c ∧ d.Lineage c above ∧
      ((m.property? tc name).isSome ↔
        ∃ e ∈ c :: above, ∃ last, d.lastClass? e.interface = some last ∧
          (last.ownProperty? name).isSome) ∧
      ((∀ e ∈ c :: above, ∀ other ∈ d.classes, other.interface = e.interface → other = e) →
        (m.property? tc name).isSome) := by
  obtain ⟨m, built, same⟩ := ok_of_map ((Registry.register_new d new).symm.trans registered)
  cases same
  obtain ⟨c, above, first, lineage, same⟩ := (Model.build_heads built).1 _ (mem_of_lookup typed)
  obtain rfl : interface = c.interface := congrArg Prod.fst same
  have known := Model.interfaceFor?_self typed labelled apart
  have looked := Model.property?_eq built lineage first known name
  have indexed : (m.property? tc name).isSome ↔
      ∃ e ∈ c :: above, ∃ last, d.lastClass? e.interface = some last ∧
        (last.ownProperty? name).isSome := by
    rw [looked, List.findSome?_isSome_iff]
    refine exists_congr fun e => and_congr_right fun _ => ?_
    rw [Dictionary.indexed?]
    cases d.lastClass? e.interface <;> simp
  refine ⟨c, above, first, lineage, indexed, fun only => ?_⟩
  -- The getter is declared along the chain, by a class that is the last one of its interface.
  obtain ⟨entry, inside, sameInterface, declaring, inherited, declared⟩ :=
    Model.declared_of_method? built found
  obtain rfl := only c List.mem_cons_self entry inside sameInterface
  rw [Model.lineage_eq lineage (Nat.lt_succ_of_lt (lineage.length_lt inside))] at inherited
  obtain ⟨p, property, rfl⟩ := Method.exists_property kind reads named
  have inClasses : declaring ∈ d.classes :=
    List.forall_mem_cons.mpr ⟨inside, lineage.subset⟩ declaring inherited
  exact indexed.mpr ⟨declaring, inherited, declaring,
    Dictionary.lastClass?_interface inClasses (only declaring inherited),
    ClassEntry.ownProperty?_isSome declared property⟩

namespace Twins

def finder : String := "application \"Finder\""

/-- A dictionary in which an interface has a class with a getter and, after it, one without. -/
def dictionary : Dictionary where
  interface := "Finder"
  classes := [
    { interface := "Finder", name := some "application" },
    { interface := "Item", name := some "item",
      methods := [
        { name := "get_name", kind := .property, scriptName := some "name", code := some "pnam",
          returns := .text }] },
    { interface := "Item", name := some "item" }]

def model : Model := (Model.build dictionary finder).toOption.getD default

/-- What the first class of the interface is to the application. -/
def item : TypeClass where
  label := { name := some "item", application := some finder, interface := some "Finder" }

/-- The name of an item can be asked for, but no property of that name is found. -/
theorem getter_without_property :
    (∃ getter, model.method? "Item" "get_name" = some getter ∧ getter.scriptName = some "name") ∧
      model.property? item "name" = none := by
  have registered : Registry.register {} dictionary finder =
      .ok (model, { models := [(finder, model)] }) := by rfl
  have found : model.method? "Item" "get_name" = some dictionary.classes[1].methods[0] := by rfl
  obtain ⟨c, above, first, lineage, indexed, -⟩ := property?_of_getter_iff rfl registered
    (rfl : model.typeClass? "Item" = some item) (.inl rfl) (by decide) found rfl (by decide) rfl
  obtain rfl : dictionary.classes[1] = c := Option.some.inj first
  obtain rfl : [] = above := (Dictionary.Lineage.top rfl).unique lineage
  refine ⟨⟨_, found, rfl⟩, Option.not_isSome_iff_eq_none.mp fun isSome => ?_⟩
  obtain ⟨e, he, last, isLast, declares⟩ := indexed.mp isSome
  rw [List.mem_singleton.mp he] at isLast
  obtain rfl : dictionary.classes[2] = last := Option.some.inj isLast
  cases declares

end Twins

end ScriptBridge
