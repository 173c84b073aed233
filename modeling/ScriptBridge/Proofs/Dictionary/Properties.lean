import ScriptBridge.Proofs.Dictionary.Classes
/-!
The properties of a class, its own and those it inherits.

A class declares a property under a key if one of its getters has the key as its name in scripts or
as its chevron; of several getters the last one counts. The index holds for an interface what the
last class of that interface declares (`lookup_properties`), and it is searched along the lineage of
the first one (`propertyFrom?_eq`). If the interfaces are distinct, a property is so looked up in
the nearest class of the lineage that declares it (`property?_distinct`).
-/
namespace ScriptBridge

/-- Whether a key names a property, by its name in scripts or by its chevron. -/
def Property.isUnder (key : String) (p : Property) : Bool :=
  p.scriptName = key || p.chevron? = some key

/-- The property that a class itself declares under a key: that of the last such getter. -/
def ClassEntry.ownProperty? (c : ClassEntry) (key : String) : Option Property :=
  (c.methods.filterMap Method.property?).reverse.find? (·.isUnder key)

/-- The property that the nearest of some classes declares under a key. -/
def nearestProperty? (chain : List ClassEntry) (key : String) : Option Property :=
  chain.findSome? (·.ownProperty? key)

/-- The last class of an interface, whose properties are the indexed ones. -/
def Dictionary.lastClass? (d : Dictionary) (interface : String) : Option ClassEntry :=
  d.classes.reverse.find? (·.interface = interface)

/-- The property that the index holds under a key for the interface of a class. -/
def Dictionary.indexed? (d : Dictionary) (key : String) (c : ClassEntry) : Option Property :=
  (d.lastClass? c.interface).bind (·.ownProperty? key)

theorem Dictionary.lastClass?_interface {d : Dictionary} {c : ClassEntry} (hc : c ∈ d.classes)
    (only : ∀ e ∈ d.classes, e.interface = c.interface → e = c) :
    d.lastClass? c.interface = some c := by
  cases found : d.lastClass? c.interface with
  | none => exact absurd (List.find?_eq_none.mp found c (List.mem_reverse.mpr hc)) (by simp)
  | some last =>
    have inside := List.mem_reverse.mp (List.mem_of_find?_eq_some found)
    have same : last.interface = c.interface := by simpa using List.find?_some found
    rw [only last inside same]

namespace Model

open Dictionary

theorem lookup_propertyKeys (m : Method) (key : String) :
    (propertyKeys m).reverse.lookup key = m.property?.filter (·.isUnder key) := by
  unfold propertyKeys
  cases m.property? with
  | none => rfl
  | some p =>
    rw [List.reverse_append, List.reverse_singleton, List.singleton_append, Option.filter_some]
    by_cases hn : p.scriptName = key
    · simp [Property.isUnder, hn]
    · cases hc : p.chevron? with
      | none => simp [Property.isUnder, List.lookup_cons, hn, hc, beq_false_of_ne (Ne.symm hn)]
      | some chevron =>
        by_cases same : chevron = key
        · simp [Property.isUnder, List.lookup_cons, hc, same, beq_false_of_ne (Ne.symm hn)]
        · simp [Property.isUnder, List.lookup_cons, hn, hc, same, beq_false_of_ne (Ne.symm hn),
            beq_false_of_ne (Ne.symm same)]

theorem lookup_propertyEntries (c : ClassEntry) (key : String) :
    (propertyEntries c).lookup key = c.ownProperty? key := by
  -- The table lists the getters from the last to the first, and the keys of each one likewise.
  have each (methods : List Method) :
      (methods.flatMap fun m => (propertyKeys m).reverse).lookup key =
        (methods.filterMap Method.property?).find? (·.isUnder key) := by
    induction methods with
    | nil => rfl
    | cons m methods ih =>
      rw [List.flatMap_cons, List.lookup_append, lookup_propertyKeys, ih, List.filterMap_cons]
      cases m.property? with
      | none => rfl
      | some p =>
        rw [List.find?_cons, Option.filter_some]
        cases p.isUnder key <;> rfl
  rw [propertyEntries, List.reverse_flatMap, ClassEntry.ownProperty?, ← List.filterMap_reverse]
  exact each c.methods.reverse

section
variable {d : Dictionary} {application : String} {c : ClassEntry} {above : List ClassEntry}
  {m : Model}

theorem lookup_properties (h : build d application = .ok m) (interface : String) :
    m.properties.lookup interface = (d.lastClass? interface).map propertyEntries := by
  have each (classes : List ClassEntry) :
      (classes.map fun entry => (entry.interface, propertyEntries entry)).lookup interface =
        (classes.find? (·.interface = interface)).map propertyEntries := by
    induction classes with
    | nil => rfl
    | cons entry classes ih =>
      rw [List.map_cons, List.lookup_cons, List.find?_cons]
      by_cases same : entry.interface = interface
      · simp [same]
      · simp [same, beq_false_of_ne (Ne.symm same), ih]
  obtain ⟨_, -, rfl⟩ := of_build h
  rw [← List.map_reverse, each]
  rfl

theorem propertyFrom?_eq (h : build d application = .ok m) (lineage : d.Lineage c above)
    (first : d.class? c.interface = some c) (key : String) {fuel : Nat}
    (enough : above.length < fuel) :
    m.propertyFrom? key fuel c.interface = (c :: above).findSome? (d.indexed? key) := by
  have own (e : ClassEntry) :
      ((m.properties.lookup e.interface).bind fun entries => entries.lookup key) =
        d.indexed? key e := by
    rw [lookup_properties h, indexed?, Option.bind_map]
    exact congrArg _ (funext fun last => lookup_propertyEntries last key)
  induction lineage generalizing fuel with
  | @top c root =>
    obtain ⟨fuel, rfl⟩ := Nat.exists_eq_succ_of_ne_zero (Nat.ne_zero_of_lt enough)
    rw [propertyFrom?, own, build_dictionary h, first, Option.bind_some, root, List.findSome?_cons]
    cases d.indexed? key c <;> rfl
  | @step c p above hext _ ih =>
    obtain ⟨fuel, rfl⟩ := Nat.exists_eq_succ_of_ne_zero (Nat.ne_zero_of_lt enough)
    have inherited := ih hext.first (Nat.lt_of_succ_lt_succ enough)
    obtain ⟨interface, named, found⟩ := hext
    rw [propertyFrom?, own, build_dictionary h, first, Option.bind_some, named, List.findSome?_cons,
      Option.bind_some, ← interface_of_class? found, inherited]
    cases d.indexed? key c <;> rfl

/-- A property is looked up along the lineage of the first class of its interface. -/
theorem property?_eq (h : build d application = .ok m) (lineage : d.Lineage c above)
    (first : d.class? c.interface = some c) {tc : TypeClass}
    (known : m.interfaceFor? tc = some c.interface) (key : String) :
    m.property? tc key = (c :: above).findSome? (d.indexed? key) := by
  have enough : above.length < m.dictionary.classes.length + 1 := by
    rw [build_dictionary h]
    exact Nat.lt_succ_of_lt (lineage.length_lt (mem_of_class? first))
  rw [property?, known, Option.bind_some]
  exact propertyFrom?_eq h lineage first key enough

/-- If the interfaces are distinct, a property is found in the nearest class that declares it. -/
theorem property?_distinct (hd : (d.classes.map (·.interface)).Nodup)
    (h : build d application = .ok m) (hc : c ∈ d.classes) (lineage : d.Lineage c above)
    {tc : TypeClass} (known : m.interfaceFor? tc = some c.interface) (key : String) :
    m.property? tc key = nearestProperty? (c :: above) key := by
  have inside : ∀ e ∈ c :: above, e ∈ d.classes := List.forall_mem_cons.mpr ⟨hc, lineage.subset⟩
  have own : ∀ e ∈ c :: above, d.indexed? key e = e.ownProperty? key := by
    intro e he
    have only : ∀ other ∈ d.classes, other.interface = e.interface → other = e :=
      fun _ ho same => List.inj_on_of_nodup_map hd ho (inside e he) same
    rw [indexed?, lastClass?_interface (inside e he) only, Option.bind_some]
  rw [property?_eq h lineage (class?_interface hd hc) known, nearestProperty?,
    ← List.head?_filterMap, ← List.head?_filterMap, List.filterMap_congr own]

theorem property?_spelled (hd : d.Unambiguous) (h : build d application = .ok m)
    (hc : c ∈ d.classes) (lineage : d.Lineage c above) {other : TypeClass}
    (ho : c.Spells other.label) (key : String) :
    m.property? other key = nearestProperty? (c :: above) key :=
  property?_distinct hd.interfaces h hc lineage (interfaceFor?_spelled hd hc ho h) key

end
end Model
end ScriptBridge
