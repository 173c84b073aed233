import ScriptBridge.Proofs.Codec.Leaves
import ScriptBridge.Proofs.Value.Leaves
import ScriptBridge.Proofs.Value.Outcomes
/-!
What cannot be written.

The classes of the script language are the only values that are written by a name which may be
missing: an interface by the name of the class that an application declares for it, and a class by
its own name or code. The leaf is then nameless (`Nameless`). All other leaves are written, and
lists and records are written if their leaves are (`endsBy_encodeAs`), so that encoding fails
exactly at the first nameless leaf (`encodeAs_eq_error_iff`).
-/
namespace ScriptBridge

/-- Whether each interface is declared by at most one application. -/
def Registry.Disjoint (r : Registry) : Prop :=
  ∀ one ∈ r.models, ∀ other ∈ r.models, ∀ interface,
    (one.2.dictionary.class? interface).isSome → (other.2.dictionary.class? interface).isSome →
      one = other

/-- A leaf without a name to write it by, and what is wrong with it. -/
inductive Nameless (r : Registry) : Value → ConfigFault → Prop
  | undeclared {interface : String}
      (nowhere : ∀ item ∈ r.models, item.2.dictionary.class? interface = none) :
      Nameless r (.interface interface) (.noClassName interface)
  | unnamed {interface : String} {item : String × Model} {c : ClassEntry}
      (registered : item ∈ r.models) (declared : item.2.dictionary.class? interface = some c)
      (name : c.name = none) :
      Nameless r (.interface interface) (.noClassName interface)
  | anonymous {c : TypeClass} (name : c.label.name = none) (code : c.label.code = none) :
      Nameless r (.typeClass c) .anonymousClass

/-- The first nameless leaf of some leaves is at fault. -/
def FirstNameless (r : Registry) (leaves : List Value) (fault : ConfigFault) : Prop :=
  ∃ before leaf after, leaves = before ++ leaf :: after ∧
    (∀ other ∈ before, ∀ f, ¬Nameless r other f) ∧ Nameless r leaf fault

/-! ## Names of interfaces -/

theorem Registry.className?_eq_none_iff {r : Registry} (disjoint : r.Disjoint)
    {interface : String} :
    r.className? none interface = none ↔
      Nameless r (.interface interface) (.noClassName interface) := by
  have first : r.resolve? none interface =
      (r.models.map (·.2)).find? fun m => (m.dictionary.class? interface).isSome := rfl
  rw [className?, class?, first]
  cases found : (r.models.map (·.2)).find? fun m => (m.dictionary.class? interface).isSome with
  | none =>
    have nowhere : ∀ item ∈ r.models, item.2.dictionary.class? interface = none := by
      simpa using found
    exact iff_of_true rfl (.undeclared nowhere)
  | some m =>
    obtain ⟨item, registered, rfl⟩ := List.mem_map.mp (List.mem_of_find?_eq_some found)
    have declares : (item.2.dictionary.class? interface).isSome := by
      simpa using List.find?_some found
    obtain ⟨c, declared⟩ := Option.isSome_iff_exists.mp declares
    rw [Option.bind_some, declared, Option.bind_some]
    constructor
    · exact .unnamed registered declared
    · rintro (nowhere | ⟨elsewhere, also, name⟩)
      · rw [nowhere item registered] at declared
        cases declared
      · -- The application that is found and the one without a name are the same.
        obtain rfl := disjoint item registered _ elsewhere interface declares
          (by rw [also]; rfl)
        obtain rfl := Option.some.inj (declared.symm.trans also)
        exact name

/-! ## How encoding ends -/

/-- What a registry finds wrong with a leaf. -/
def leafFault? (r : Registry) : Value → Option ConfigFault
  | .interface name => if r.className? none name = none then some (.noClassName name) else none
  | .typeClass c => if c.label.name.or c.label.code = none then some .anonymousClass else none
  | _ => none

theorem leafFault?_eq_some_iff {r : Registry} (disjoint : r.Disjoint) {leaf : Value}
    {fault : ConfigFault} : leafFault? r leaf = some fault ↔ Nameless r leaf fault := by
  cases leaf with
  | interface name =>
    rw [leafFault?, Option.ite_none_right_eq_some, Registry.className?_eq_none_iff disjoint]
    constructor
    · rintro ⟨nameless, ⟨⟩⟩
      exact nameless
    · intro nameless
      have same : fault = .noClassName name := by cases nameless <;> rfl
      subst same
      exact ⟨nameless, rfl⟩
  | typeClass c =>
    rw [leafFault?, Option.ite_none_right_eq_some, Option.or_eq_none_iff]
    constructor
    · rintro ⟨⟨name, code⟩, ⟨⟩⟩
      exact .anonymous name code
    · intro nameless
      cases nameless with
      | anonymous name code => exact ⟨⟨name, code⟩, rfl⟩
  | _ => exact iff_of_false nofun nofun

/-- A computation fails by a fault of the declarations if there is one, and else succeeds. -/
inductive EndsBy {α : Type} : Option ConfigFault → Except ScriptError α → Prop
  | ok (a : α) : EndsBy none (.ok a)
  | error (fault : ConfigFault) : EndsBy (some fault) (.error (.config fault))

namespace EndsBy
variable {α β : Type} {fault next : Option ConfigFault} {x : Except ScriptError α}

theorem eq_error_iff (h : EndsBy fault x) (e : ScriptError) :
    x = .error e ↔ ∃ f, fault = some f ∧ e = .config f := by
  cases h with
  | ok a => exact iff_of_false nofun nofun
  | error f => simp [eq_comm]

theorem fails_iff (h : EndsBy fault x) : (∃ e, x = .error e) ↔ fault.isSome := by
  cases h with
  | ok a => exact iff_of_false nofun nofun
  | error f => exact iff_of_true ⟨_, rfl⟩ rfl

theorem map (h : EndsBy fault x) (f : α → β) : EndsBy fault (x.map f) := by
  cases h with
  | ok a => exact .ok (f a)
  | error f => exact .error f

theorem bind (h : EndsBy fault x) {f : α → Except ScriptError β}
    (hf : ∀ a, EndsBy next (f a)) : EndsBy (fault.or next) (x >>= f) := by
  cases h with
  | ok a => exact hf a
  | error f => exact .error f

end EndsBy

namespace Codec

theorem encodeItems_cons (codecs : List Codec) (r : Registry) (item : Value)
    (items : List Value) :
    encodeItems codecs r (item :: items) = (encodeAs codecs r item >>= fun text =>
      (encodeItems codecs r items).map (text :: ·)) := by
  rw [encodeItems]
  cases encodeAs codecs r item <;> rfl

theorem encodeEntries_cons (codecs : List Codec) (r : Registry) (key : String) (value : Value)
    (entries : List (String × Value)) :
    encodeEntries codecs r ((key, value) :: entries) = (encodeAs codecs r value >>= fun text =>
      (encodeEntries codecs r entries).map ((key ++ ": " ++ text) :: ·)) := by
  rw [encodeEntries]
  cases encodeAs codecs r value <;> rfl

section
variable (locale : String) (r : Registry)

/-- The codec of a type writes the values of the type. -/
theorem endsBy_of_codec {leaf : Value} {codec : Codec} {text : String}
    (coded : leaf.valueType ∈ codecTypes)
    (hf : find? (builtin locale) leaf.valueType = some codec)
    (written : codec.encode leaf = .ok text) :
    EndsBy none (encodeAs (builtin locale) r leaf) := by
  rw [encodeAs_of_codec coded hf, written]
  exact .ok text

theorem endsBy_leaf {leaf : Value} (noList : leaf.items? = none) (noRecord : leaf.entries? = none) :
    EndsBy (leafFault? r leaf) (encodeAs (builtin locale) r leaf) := by
  cases leaf with
  | list => cases noList
  | map => cases noRecord
  -- These are written without a codec, and always.
  | null | reference | object | constant | id => exact .ok _
  | interface name =>
    rw [encodeAs, leafFault?]
    cases r.className? none name with
    | none => exact .error _
    | some text => exact .ok text
  | typeClass c =>
    have coded : (Value.typeClass c).valueType ∈ codecTypes :=
      show ValueType.typeClass ∈ codecTypes by decide
    rw [encodeAs_of_codec coded (show find? (builtin locale) .typeClass = some typeClass from rfl)]
    simp only [typeClass, leafFault?]
    cases c.label.name.or c.label.code with
    | none => exact .error _
    | some text => exact .ok text
  | _ => exact endsBy_of_codec locale r (by simp [Value.valueType, codecTypes]) rfl rfl

theorem endsBy_encodeItems {items : List Value} (each : ∀ item ∈ items,
      EndsBy (item.leaves.findSome? (leafFault? r)) (encodeAs (builtin locale) r item)) :
    EndsBy ((itemLeaves items).findSome? (leafFault? r))
      (encodeItems (builtin locale) r items) := by
  induction items with
  | nil => exact .ok []
  | cons item items ih =>
    rw [List.forall_mem_cons] at each
    rw [itemLeaves, List.findSome?_append, encodeItems_cons]
    exact each.1.bind fun text => (ih each.2).map (text :: ·)

theorem endsBy_encodeEntries {entries : List (String × Value)} (each : ∀ entry ∈ entries,
      EndsBy (entry.2.leaves.findSome? (leafFault? r)) (encodeAs (builtin locale) r entry.2)) :
    EndsBy ((entryLeaves entries).findSome? (leafFault? r))
      (encodeEntries (builtin locale) r entries) := by
  induction entries with
  | nil => exact .ok []
  | cons entry entries ih =>
    rw [List.forall_mem_cons] at each
    rw [entryLeaves, List.findSome?_append, encodeEntries_cons]
    exact each.1.bind fun text => (ih each.2).map ((entry.1 ++ ": " ++ text) :: ·)

/-- A value is written unless something is wrong with a leaf, and the first such leaf counts. -/
theorem endsBy_encodeAs (v : Value) :
    EndsBy (v.leaves.findSome? (leafFault? r)) (encodeAs (builtin locale) r v) := by
  induction v using Value.nested_induction with
  | leaf leaf noList noRecord =>
    have alone : leaf.leaves = [leaf] := by
      rw [Value.leaves]
      · rintro items rfl
        cases noList
      · rintro entries rfl
        cases noRecord
    rw [alone, List.findSome?_singleton]
    exact endsBy_leaf locale r noList noRecord
  | list items each =>
    rw [Value.leaves, encodeAs]
    exact (endsBy_encodeItems locale r each).map inBraces
  | map entries each =>
    rw [Value.leaves, encodeAs]
    exact (endsBy_encodeEntries locale r each).map inBraces

end

/-- **Encoding fails exactly where it must.** If each interface is declared by at most one
application, a value, lists and records at any depth included, cannot be written exactly if one of
its leaves is nameless: an interface that no application declares or that is declared without a
name for its class, or a class with neither name nor code. The error is that of the first such leaf,
in the order of lists and of the keys of records. No rectangle is refused, because the sums that are
its far corner wrap around. -/
theorem encodeAs_eq_error_iff {r : Registry} (disjoint : r.Disjoint) (locale : String) (v : Value) :
    ((∃ e, encodeAs (builtin locale) r v = .error e) ↔
      ∃ leaf ∈ v.leaves, ∃ fault, Nameless r leaf fault) ∧
    ∀ e, encodeAs (builtin locale) r v = .error e ↔
      ∃ fault, FirstNameless r v.leaves fault ∧ e = .config fault := by
  have ends := endsBy_encodeAs locale r v
  refine ⟨?_, fun e => ?_⟩
  · rw [ends.fails_iff, List.findSome?_isSome_iff]
    simp only [Option.isSome_iff_exists, leafFault?_eq_some_iff disjoint]
  · rw [ends.eq_error_iff]
    simp only [findSome?_eq_some_iff_first fun _ _ => leafFault?_eq_some_iff disjoint]
    rfl

namespace Cellar

/-- An application with a class that has a name and one that has none. -/
def registry : Registry where
  models := [("application \"Cellar\"", {
    application := "application \"Cellar\""
    dictionary := {
      interface := "Cellar"
      classes := [{ interface := "Cellar" }, { interface := "Rack", name := some "rack" }] }
    typeClasses := []
    methods := []
    properties := [] })]

/-- The interface with a name, the one without, and a class without name and code. -/
def value : Value :=
  .list [.interface "Rack",
    .map [("content", .list [.text "wine", .interface "Cellar"]),
      ("kind", .typeClass { label := {} })]]

/-- The first nameless leaf stands in a list in a record in a list. -/
theorem encodeAs_value_error :
    registry.Disjoint ∧
      encodeAs (builtin "en_US") registry value = .error (.config (.noClassName "Cellar")) := by
  have disjoint : registry.Disjoint := by
    intro one h other h'
    rw [registry, List.mem_singleton] at h h'
    exact fun _ _ _ => h.trans h'.symm
  have named : ∀ leaf ∈ [Value.interface "Rack", .text "wine"],
      ∀ fault, ¬Nameless registry leaf fault := by
    intro leaf inside fault nameless
    have none : ∀ leaf ∈ [Value.interface "Rack", .text "wine"],
        leafFault? registry leaf = none := by decide
    rw [← leafFault?_eq_some_iff disjoint, none leaf inside] at nameless
    cases nameless
  have first : FirstNameless registry value.leaves (.noClassName "Cellar") :=
    ⟨[.interface "Rack", .text "wine"], .interface "Cellar", [.typeClass { label := {} }], rfl,
      named, .unnamed List.mem_cons_self rfl rfl⟩
  exact ⟨disjoint, ((encodeAs_eq_error_iff disjoint "en_US" value).2 _).mpr ⟨_, first, rfl⟩⟩

end Cellar

end Codec
end ScriptBridge
