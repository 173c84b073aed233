import ScriptBridge.Proofs.Dictionary.Founded
import ScriptBridge.Proofs.Dictionary.Properties
import ScriptBridge.Proofs.Dictionary.Reported
import ScriptBridge.Proofs.Value.Outcomes
/-!
Methods and properties are those of the nearest class that declares them.

What a class declares is written down here without a table: the first of its methods of a name, and
the last of its getters under a key. Of a chain of classes the nearest one that has something counts
(`InNearest`). A registered application answers so, if its interfaces are distinct. The table of
methods holds for an interface all that its class inherits and is read by its first entry
(`Model.method?_eq`). The index of properties holds for an interface its own getters only, each one
under two keys, and is searched class by class (`Model.property?_distinct`).
-/
namespace ScriptBridge

/-! ## What is declared -/

/-- What the nearest of some classes has: it has it, and the classes before it have nothing. -/
def InNearest {α : Type} (has : ClassEntry → α → Prop) (chain : List ClassEntry) (a : α) : Prop :=
  ∃ nearer e farther, chain = nearer ++ e :: farther ∧ (∀ p ∈ nearer, ∀ b, ¬has p b) ∧ has e a

theorem findSome?_eq_some_iff_inNearest {α : Type} {own : ClassEntry → Option α}
    {has : ClassEntry → α → Prop} (agree : ∀ e a, own e = some a ↔ has e a)
    {chain : List ClassEntry} {a : α} :
    chain.findSome? own = some a ↔ InNearest has chain a :=
  findSome?_eq_some_iff_first agree

/-- The first method of a name that a class declares. -/
def ClassEntry.HasFirst (name : String) (c : ClassEntry) (method : Method) : Prop :=
  method.name = name ∧
    ∃ before after, c.methods = before ++ method :: after ∧ ∀ m ∈ before, m.name ≠ name

theorem ClassEntry.find?_eq_some_iff_hasFirst {c : ClassEntry} {name : String} {method : Method} :
    c.methods.find? (·.name = name) = some method ↔ c.HasFirst name method := by
  simp [HasFirst, List.find?_eq_some_iff_append]

/-- A getter has a name in scripts, and a key is that name or the chevron of its code. The property
is as the getter declares it. -/
def Method.ReadsUnder (key : String) (m : Method) (p : Property) : Prop :=
  m.kind = .property ∧ m.isGetter = true ∧ m.scriptName = some p.scriptName ∧
    (p.scriptName = key ∨ ∃ code, m.code = some code ∧ "«property " ++ code ++ "»" = key) ∧
    p.code = m.code ∧ p.key = m.accessorName ∧ p.valueType = m.returns

/-- The property of the last getter that a class declares under a key. -/
def ClassEntry.HasLast (key : String) (c : ClassEntry) (p : Property) : Prop :=
  ∃ before getter after, c.methods = before ++ getter :: after ∧ getter.ReadsUnder key p ∧
    ∀ m ∈ after, ∀ q, ¬m.ReadsUnder key q

theorem Method.readsUnder_iff {m : Method} {key : String} {p : Property} :
    m.ReadsUnder key p ↔ m.property? = some p ∧ p.isUnder key = true := by
  have chevron (code : String) : s!"«property {code}»" = "«property " ++ code ++ "»" := rfl
  obtain ⟨name, code, accessor, type⟩ := p
  simp only [ReadsUnder, property?, Property.isUnder, Property.chevron?, Bool.or_eq_true,
    decide_eq_true_eq, Option.map_eq_some_iff, chevron]
  constructor
  · rintro ⟨kind, reads, named, under, rfl, rfl, rfl⟩
    rw [if_pos ⟨kind, reads⟩]
    exact ⟨Option.map_eq_some_iff.mpr ⟨name, named, rfl⟩, under⟩
  · rintro ⟨declared, under⟩
    split at declared
    · next getter =>
      obtain ⟨name', named, same⟩ := Option.map_eq_some_iff.mp declared
      cases same
      exact ⟨getter.1, getter.2, named, under, rfl, rfl, rfl⟩
    · cases declared

theorem ClassEntry.ownProperty?_eq_some_iff_hasLast {c : ClassEntry} {key : String} {p : Property} :
    c.ownProperty? key = some p ↔ c.HasLast key p := by
  have reads (m : Method) :
      m.property?.any (·.isUnder key) = true ↔ ∃ q, m.ReadsUnder key q := by
    simp only [Option.any_eq_true, Method.readsUnder_iff]
  have silent (m : Method) :
      (!m.property?.any (·.isUnder key)) = true ↔ ∀ q, ¬m.ReadsUnder key q := by
    rw [Bool.not_eq_true', ← Bool.not_eq_true, reads, not_exists]
  -- The last getter of the declarations is the first one of their reverse.
  rw [ownProperty?, ← List.filterMap_reverse, List.find?_filterMap, Option.bind_eq_some_iff]
  constructor
  · rintro ⟨getter, found, declared⟩
    obtain ⟨here, after, before, split, later⟩ := List.find?_eq_some_iff_append.mp found
    have under : p.isUnder key = true := by simpa [declared] using here
    have order : c.methods = before.reverse ++ getter :: after.reverse := by
      simpa using congrArg List.reverse split
    exact ⟨before.reverse, getter, after.reverse, order,
      Method.readsUnder_iff.mpr ⟨declared, under⟩,
      fun m hm => (silent m).mp (later m (List.mem_reverse.mp hm))⟩
  · rintro ⟨before, getter, after, split, here, later⟩
    have order : c.methods.reverse = after.reverse ++ getter :: before.reverse := by
      rw [split, List.reverse_append, List.reverse_cons, List.append_assoc, List.singleton_append]
    exact ⟨getter, List.find?_eq_some_iff_append.mpr ⟨(reads getter).mpr ⟨p, here⟩,
      after.reverse, before.reverse, order,
      fun m hm => (silent m).mpr (later m (List.mem_reverse.mp hm))⟩,
      (Method.readsUnder_iff.mp here).1⟩

theorem ClassEntry.ownProperty?_isSome_iff {c : ClassEntry} {key : String} :
    (c.ownProperty? key).isSome ↔ ∃ getter ∈ c.methods, ∃ p, getter.ReadsUnder key p := by
  rw [ownProperty?, List.find?_isSome]
  constructor
  · rintro ⟨p, inside, under⟩
    obtain ⟨getter, here, declared⟩ := List.mem_filterMap.mp (List.mem_reverse.mp inside)
    exact ⟨getter, here, p, Method.readsUnder_iff.mpr ⟨declared, under⟩⟩
  · rintro ⟨getter, here, p, reads⟩
    obtain ⟨declared, under⟩ := Method.readsUnder_iff.mp reads
    exact ⟨p, List.mem_reverse.mpr (List.mem_filterMap.mpr ⟨getter, here, declared⟩), under⟩

/-! ## What is found -/

namespace Model

open Dictionary

variable {d : Dictionary} {application : String} {c : ClassEntry} {above : List ClassEntry}
  {m : Model}

/-- A class gives its interface methods, of which the nearest one of each name counts. -/
theorem lookup_methodEntries (lineage : d.Lineage c above)
    (enough : above.length < d.classes.length) (name : String) :
    (methodEntries d c).lookup (c.interface, name) =
      (c :: above).findSome? (·.methods.find? (·.name = name)) := by
  have own (methods : List Method) :
      (methods.map fun m => ((c.interface, m.name), m)).lookup (c.interface, name) =
        methods.find? (·.name = name) := by
    induction methods with
    | nil => rfl
    | cons m methods ih =>
      rw [List.map_cons, List.lookup_cons, List.find?_cons, ih]
      by_cases same : m.name = name
      · simp [same]
      · have apart : (c.interface, name) ≠ (c.interface, m.name) := fun keys =>
          same (congrArg Prod.snd keys).symm
        simp only [beq_false_of_ne apart, decide_eq_false same]
  rw [methodEntries, Model.lineage_eq lineage (Nat.lt_succ_of_lt enough), lookup_flatMap]
  exact congrArg (fun f => List.findSome? f (c :: above)) (funext fun e => own e.methods)

theorem lookup_methodEntries_of_ne {e : ClassEntry} {interface : String}
    (other : e.interface ≠ interface) (name : String) :
    (methodEntries d e).lookup (interface, name) = none := by
  rw [methodEntries, lookup_flatMap, List.findSome?_eq_none_iff]
  intro declaring _
  rw [List.lookup_eq_none_iff]
  intro item inside
  obtain ⟨m, -, rfl⟩ := List.mem_map.mp inside
  exact bne_iff_ne.mpr fun same => other (congrArg Prod.fst same).symm

/-- The table of methods holds the nearest method of each name, if the interfaces are distinct. -/
theorem method?_eq (hd : (d.classes.map (·.interface)).Nodup) (h : build d application = .ok m)
    (hc : c ∈ d.classes) (lineage : d.Lineage c above) (name : String) :
    m.method? c.interface name = (c :: above).findSome? (·.methods.find? (·.name = name)) := by
  rw [← lookup_methodEntries lineage (lineage.length_lt hc) name]
  obtain ⟨_, -, rfl⟩ := of_build h
  rw [method?, lookup_flatMap]
  -- Whatever the table holds for the interface, it has from this class.
  cases found : d.classes.findSome? fun e => (methodEntries d e).lookup (c.interface, name) with
  | none => exact (List.findSome?_eq_none_iff.mp found c hc).symm
  | some method =>
    obtain ⟨e, he, here⟩ := List.exists_of_findSome?_eq_some found
    by_cases shared : e.interface = c.interface
    · obtain rfl := List.inj_on_of_nodup_map hd he hc shared
      exact here.symm
    · rw [lookup_methodEntries_of_ne shared] at here
      cases here

/-- A description is taken for the declared class of one interface, and for no other. -/
structure NamesOnly (m : Model) (tc : TypeClass) (interface : String) : Prop where
  named : ∃ declared, m.typeClass? interface = some declared ∧ isDeclaredAs declared tc = true
  alone : ∀ other declared, m.typeClass? other = some declared →
    isDeclaredAs declared tc = true → other = interface

theorem interfaceFor?_namesOnly (h : build d application = .ok m) {tc : TypeClass}
    {interface : String} (only : m.NamesOnly tc interface) :
    m.interfaceFor? tc = some interface := by
  obtain ⟨declared, typed, taken⟩ := only.named
  obtain ⟨item, found⟩ := exists_declared? (mem_of_lookup typed) taken
  obtain ⟨inside, same⟩ := of_declared? found
  rw [interfaceFor?, found, Option.map_some,
    only.alone item.1 item.2 (typeClass?_of_mem h inside) same]

end Model

/-- **The method of an interface is that of the nearest class.** In a newly registered application
whose interfaces are distinct, a method that the class of an interface declares is looked up as the
first one of its name there. Otherwise it is the first one of the nearest superclass that declares
one, and there is none exactly if no class of the chain does. -/
theorem Registry.method?_nearest {r after : Registry} {d : Dictionary} {application : String}
    {m : Model} (new : r.get? application = none)
    (registered : r.register d application = .ok (m, after))
    (distinct : (d.classes.map (·.interface)).Nodup) {c : ClassEntry} (hc : c ∈ d.classes)
    (name : String) :
    ∃ above, d.Lineage c above ∧
      (∀ method, c.HasFirst name method → m.method? c.interface name = some method) ∧
      (∀ method, m.method? c.interface name = some method ↔
        InNearest (·.HasFirst name) (c :: above) method) ∧
      (m.method? c.interface name = none ↔
        ∀ e ∈ c :: above, ∀ method ∈ e.methods, method.name ≠ name) := by
  obtain ⟨built, -⟩ := build_of_register new registered
  obtain ⟨above, lineage, -⟩ := (Model.build_typeClasses distinct built).2 c hc
  have looked := Model.method?_eq distinct built hc lineage name
  refine ⟨above, lineage, fun method own => ?_, fun method => ?_, ?_⟩
  · rw [looked, List.findSome?_cons, ClassEntry.find?_eq_some_iff_hasFirst.mpr own]
  · rw [looked]
    exact findSome?_eq_some_iff_inNearest fun _ _ => ClassEntry.find?_eq_some_iff_hasFirst
  · rw [looked, List.findSome?_eq_none_iff]
    refine forall₂_congr fun e _ => ?_
    simp

namespace Drawers

def finder : String := "application \"Finder\""

def name : Method :=
  { name := "get_name", kind := .property, scriptName := some "name", code := some "pnam",
    returns := .text }

def label : Method :=
  { name := "get_label", kind := .property, scriptName := some "label", code := some "pnam",
    returns := .text }

/-- A second getter of the same method name and code. -/
def caption : Method := { label with scriptName := some "caption", returns := .integer }

def item : ClassEntry :=
  { interface := "Item", name := some "item", code := some "cobj", methods := [name] }

def container : ClassEntry :=
  { interface := "Container", name := some "container", code := some "ctnr",
    superclass := some "Item", methods := [label, caption] }

def folder : ClassEntry :=
  { interface := "Folder", name := some "folder", code := some "cfol",
    superclass := some "Container" }

/-- A dictionary in which a folder inherits getters from two classes, three of them for one code. -/
def dictionary : Dictionary where
  interface := "Finder"
  classes := [folder, { interface := "Finder", name := some "application" }, item, container]

def model : Model := (Model.build dictionary finder).toOption.getD default

theorem registered : Registry.register {} dictionary finder =
    .ok (model, { models := [(finder, model)] }) := by
  rfl

theorem above_folder : dictionary.Lineage folder [container, item] :=
  .step ⟨"Container", rfl, rfl⟩ (.step ⟨"Item", rfl, rfl⟩ (.top rfl))

/-- A folder's method of a name is the first one that the next class above it declares. -/
theorem first_inherited_method : model.method? "Folder" "get_label" = some label := by
  obtain ⟨above, lineage, -, found, -⟩ := Registry.method?_nearest (r := {}) rfl registered
    (by decide) (c := folder) List.mem_cons_self "get_label"
  obtain rfl := lineage.unique above_folder
  refine (found label).mpr ⟨[folder], container, [item], rfl, fun p hp b own => ?_, ?_⟩
  · rw [List.mem_singleton.mp hp, ← ClassEntry.find?_eq_some_iff_hasFirst] at own
    cases own
  · exact ClassEntry.find?_eq_some_iff_hasFirst.mp rfl

end Drawers

/-- **The property of a class is that of the nearest class, by name or by chevron.** In a newly
registered application whose interfaces are distinct, every search for a property ends. For a class
that is taken for one declared class only, it ends with the property of the last getter that the
nearest class of the chain declares under the key, and with none exactly if no class of the chain
declares such a getter. -/
theorem Registry.property?_nearest {r after : Registry} {d : Dictionary} {application : String}
    {m : Model} (new : r.get? application = none)
    (registered : r.register d application = .ok (m, after))
    (distinct : (d.classes.map (·.interface)).Nodup) {c : ClassEntry} (hc : c ∈ d.classes) :
    (∀ key, ∃ found, Ends (m.search key) c.interface found) ∧
      ∃ above, d.Lineage c above ∧ ∀ tc, m.NamesOnly tc c.interface → ∀ key,
        Ends (m.search key) c.interface (m.property? tc key) ∧
        (∀ p, m.property? tc key = some p ↔ InNearest (·.HasLast key) (c :: above) p) ∧
        ((m.property? tc key).isSome ↔
          ∃ e ∈ c :: above, ∃ getter ∈ e.methods, ∃ p, getter.ReadsUnder key p) := by
  obtain ⟨built, -⟩ := build_of_register new registered
  obtain ⟨above, lineage, -⟩ := (Model.build_typeClasses distinct built).2 c hc
  have first := Dictionary.class?_interface distinct hc
  refine ⟨fun key => ?_, above, lineage, fun tc only key => ?_⟩
  · have chain := lineage
    rw [← Model.build_dictionary built] at chain first
    exact ⟨_, Model.ends_propertyFrom? chain key first (Nat.lt_succ_self _)⟩
  have known := Model.interfaceFor?_namesOnly built only
  have ends := Model.ends_property? built tc key
  rw [known] at ends
  have looked := Model.property?_distinct distinct built hc lineage known key
  refine ⟨ends, fun p => ?_, ?_⟩
  · rw [looked, nearestProperty?]
    exact findSome?_eq_some_iff_inNearest fun _ _ => ClassEntry.ownProperty?_eq_some_iff_hasLast
  · rw [looked, nearestProperty?, List.findSome?_isSome_iff]
    exact exists_congr fun e => and_congr_right fun _ => ClassEntry.ownProperty?_isSome_iff

namespace Drawers

/-- How a folder may be reported. -/
def reported : TypeClass where
  label := { name := some "folder", application := some finder }

theorem reported_namesOnly : model.NamesOnly reported "Folder" where
  named := ⟨dictionary.typeClass finder folder [container, item], rfl, by decide⟩
  alone := by
    intro other declared typed taken
    have built : Model.build dictionary finder = .ok model := by rfl
    obtain ⟨c, above, first, -, same⟩ := Model.typeClass?_heads built typed
    cases same
    have inside := Dictionary.mem_of_class? first
    simp only [dictionary, List.mem_cons, List.not_mem_nil, or_false] at inside
    -- What it is taken for does not depend on what is above.
    have alone : Model.isDeclaredAs (dictionary.typeClass finder c []) reported = true := taken
    rcases inside with rfl | rfl | rfl | rfl
    · rfl
    all_goals exact absurd alone (by decide)

/-- A folder's property of a chevron is that of the last getter which the next class above it
declares with that code. -/
theorem last_inherited_property :
    model.property? reported "«property pnam»" = some
      { scriptName := "caption", code := some "pnam", key := "label", valueType := .integer } := by
  obtain ⟨-, above, lineage, looked⟩ := Registry.property?_nearest (r := {}) rfl registered
    (by decide) (c := folder) List.mem_cons_self
  obtain rfl := lineage.unique above_folder
  obtain ⟨-, found, -⟩ := looked reported reported_namesOnly "«property pnam»"
  refine (found _).mpr ⟨[folder], container, [item], rfl, fun p hp b own => ?_, ?_⟩
  · rw [List.mem_singleton.mp hp, ← ClassEntry.ownProperty?_eq_some_iff_hasLast] at own
    cases own
  · exact ClassEntry.ownProperty?_eq_some_iff_hasLast.mp rfl

end Drawers

end ScriptBridge
