import Mathlib.Data.List.Forall2
import ScriptBridge.Json.Structure
import ScriptBridge.Proofs.Json.ReadBack
/-!
Documents from which members are left out.

Some members of an object can be spared: a reader that knows their key has a value for them when
they are missing. Which ones is a matter of the key and the value. A document is `Abridged` to
another one when some of these members are left out, at any depth. A structure whose names are
distinct is read from its abridged object field by field: a field that is missing could be spared,
and the others hold their abridged value (`fields?_abridged`). So a value survives (`ReadAs`) when
each field that can be spared holds the value that the reader has for it.
-/
namespace ScriptBridge.Json

/-- The members of an object without some that can be spared, and with the values of the others in
place of what they are related to. -/
inductive MembersAbridged (spare : String → Json → Prop) (related : Json → Json → Prop) :
    List (Option String × Json) → List (Option String × Json) → Prop
  | nil : MembersAbridged spare related [] []
  | keep {key : Option String} {value value' : Json}
      {members members' : List (Option String × Json)} (h : related value value')
      (others : MembersAbridged spare related members members') :
      MembersAbridged spare related ((key, value) :: members) ((key, value') :: members')
  | leave {key : String} {value : Json} {members members' : List (Option String × Json)}
      (h : spare key value) (others : MembersAbridged spare related members members') :
      MembersAbridged spare related ((some key, value) :: members) members'

/-- Whether a document becomes another one when some members that can be spared are left out. -/
inductive Abridged (spare : String → Json → Prop) : Json → Json → Prop
  | refl (j : Json) : Abridged spare j j
  | array {items items' : List Json} (h : List.Forall₂ (Abridged spare) items items') :
      Abridged spare (.array items) (.array items')
  | object {members members' : List (Option String × Json)}
      (h : MembersAbridged spare (Abridged spare) members members') :
      Abridged spare (.object members) (.object members')

section

variable {spare : String → Json → Prop} {j : Json} {members : List (Option String × Json)}

theorem MembersAbridged.refl (members : List (Option String × Json)) :
    MembersAbridged spare (Abridged spare) members members := by
  induction members with
  | nil => exact .nil
  | cons member members ih => exact .keep (.refl member.2) ih

theorem Abridged.of_ofText {s : String} (h : Abridged spare (ofText s) j) : j = ofText s := by
  cases h
  rfl

theorem Abridged.of_ofOption {s : Option String} (h : Abridged spare (ofOption s) j) :
    j = ofOption s := by
  cases s <;> (cases h; rfl)

theorem Abridged.of_array {items : List Json} (h : Abridged spare (.array items) j) :
    ∃ items', j = .array items' ∧ List.Forall₂ (Abridged spare) items items' := by
  cases h with
  | refl => exact ⟨items, rfl, List.forall₂_same.mpr fun item _ => .refl item⟩
  | @array _ items' h => exact ⟨items', rfl, h⟩

theorem Abridged.of_object (h : Abridged spare (.object members) j) :
    ∃ members', j = .object members' ∧
      MembersAbridged spare (Abridged spare) members members' := by
  cases h with
  | refl => exact ⟨members, rfl, .refl members⟩
  | @object _ members' h => exact ⟨members', rfl, h⟩

theorem MembersAbridged.origin {members' : List (Option String × Json)}
    {related : Json → Json → Prop} (h : MembersAbridged spare related members members') :
    ∀ member' ∈ members',
      ∃ member ∈ members, member.1 = member'.1 ∧ related member.2 member'.2 := by
  induction h with
  | nil => nofun
  | @keep key value value' members members' h _ ih =>
    refine List.forall_mem_cons.mpr ⟨⟨_, List.mem_cons_self, rfl, h⟩, fun member' inside => ?_⟩
    obtain ⟨member, mem, same⟩ := ih member' inside
    exact ⟨member, List.mem_cons_of_mem _ mem, same⟩
  | leave _ _ ih =>
    intro member' inside
    obtain ⟨member, mem, same⟩ := ih member' inside
    exact ⟨member, List.mem_cons_of_mem _ mem, same⟩

theorem Sound.abridged {j j' : Json} (sound : j.Sound) (h : Abridged spare j j') : j'.Sound := by
  induction sound generalizing j' with
  | null => cases h; exact .null
  | bool b => cases h; exact .bool b
  | number literal => cases h; exact .number literal
  | string text => cases h; exact .string text
  | @array items inside ih =>
    obtain ⟨items', rfl, related⟩ := h.of_array
    clear h inside
    refine .array ?_
    induction related with
    | nil => nofun
    | cons first _ others =>
      obtain ⟨ihFirst, ihOthers⟩ := List.forall_mem_cons.mp ih
      exact List.forall_mem_cons.mpr ⟨ihFirst first, others ihOthers⟩
  | @object members _ ih =>
    obtain ⟨members', rfl, related⟩ := h.of_object
    refine .object fun member' inside => ?_
    obtain ⟨member, mem, -, same⟩ := related.origin member' inside
    exact ih member mem same

end

mutual
/-- How many arrays and objects stand around the innermost part of a document. -/
def depth : Json → Nat
  | .array items => itemDepth items + 1
  | .object members => memberDepth members + 1
  | _ => 0

/-- The depth of the deepest item. -/
def itemDepth : List Json → Nat
  | [] => 0
  | item :: items => max item.depth (itemDepth items)

/-- The depth of the deepest member. -/
def memberDepth : List (Option String × Json) → Nat
  | [] => 0
  | (_, value) :: members => max value.depth (memberDepth members)
end

example : depth (.array [.array [], .ofMembers [("a", .array [.null])]]) = 3 := by decide

theorem depth_le_itemDepth {items : List Json} {item : Json} (h : item ∈ items) :
    item.depth ≤ itemDepth items := by
  induction items with
  | nil => cases h
  | cons first items ih =>
    rw [itemDepth]
    rcases List.mem_cons.mp h with rfl | h
    · exact Nat.le_max_left ..
    · exact (ih h).trans (Nat.le_max_right ..)

theorem depth_le_memberDepth {members : List (Option String × Json)}
    {member : Option String × Json} (h : member ∈ members) :
    member.2.depth ≤ memberDepth members := by
  induction members with
  | nil => cases h
  | cons first members ih =>
    rw [memberDepth]
    rcases List.mem_cons.mp h with rfl | h
    · exact Nat.le_max_left ..
    · exact (ih h).trans (Nat.le_max_right ..)

theorem room_of_array {items : List Json} {room : Nat} (shallow : (array items).depth ≤ room) :
    ∃ inside, room = inside + 1 ∧ ∀ item ∈ items, item.depth ≤ inside := by
  rw [depth] at shallow
  obtain ⟨inside, rfl⟩ := Nat.exists_eq_add_one_of_ne_zero (show room ≠ 0 by omega)
  exact ⟨inside, rfl, fun item h => (depth_le_itemDepth h).trans (by omega)⟩

theorem room_of_members {members : List (String × Json)} {room : Nat}
    (shallow : (ofMembers members).depth ≤ room) :
    ∃ inside, room = inside + 1 ∧ ∀ member ∈ members, member.2.depth ≤ inside := by
  rw [ofMembers, depth] at shallow
  obtain ⟨inside, rfl⟩ := Nat.exists_eq_add_one_of_ne_zero (show room ≠ 0 by omega)
  refine ⟨inside, rfl, fun member h => ?_⟩
  have written : (some member.1, member.2) ∈ members.map fun m => (some m.1, m.2) :=
    List.mem_map_of_mem h
  exact (depth_le_memberDepth written).trans (Nat.le_of_succ_le_succ shallow)

/-! ## Structures -/

/-- What is read of the field of an abridged structure: nothing if the field could be spared, and
otherwise its abridged value. -/
inductive FieldKept (spare : String → Json → Prop) : String × Json → Option Json → Prop
  | left {key : String} {value : Json} (h : spare key value) : FieldKept spare (key, value) none
  | kept {key : String} {value value' : Json} (h : Abridged spare value value') :
    FieldKept spare (key, value) (some value')

section

variable {spare : String → Json → Prop} {members : List (String × Json)}
  {members' : List (Option String × Json)} {key : String}

theorem filter_of_absent (h : ∀ member ∈ members', member.1 ≠ some key) :
    (members'.filter fun member => member.1 == some key) = [] :=
  List.filter_eq_nil_iff.mpr fun member inside same => h member inside (eq_of_beq same)

theorem onlyMember?_of_absent (h : ∀ member ∈ members', member.1 ≠ some key) :
    onlyMember? members' key = some none := by
  simp only [onlyMember?, filter_of_absent h]

theorem onlyMember?_of_first {value : Json} (h : ∀ member ∈ members', member.1 ≠ some key) :
    onlyMember? ((some key, value) :: members') key = some (some value) := by
  simp only [onlyMember?, List.filter_cons, beq_self_eq_true, if_true, filter_of_absent h]

theorem onlyMember?_of_other {other : String} {value : Json} (h : other ≠ key) :
    onlyMember? ((some other, value) :: members') key = onlyMember? members' key := by
  simp only [onlyMember?, List.filter_cons, Option.some_beq_some, beq_iff_eq, if_neg h]

/-- Each field of an abridged object is found under its name if it is there. -/
theorem onlyMember?_abridged (distinct : (members.map Prod.fst).Nodup)
    (h : MembersAbridged spare (Abridged spare) (members.map fun m => (some m.1, m.2)) members') :
    ∀ member ∈ members, ∃ field, onlyMember? members' member.1 = some field ∧
      FieldKept spare member field := by
  induction members generalizing members' with
  | nil => nofun
  | cons member members ih =>
    obtain ⟨fresh, distinct⟩ := List.nodup_cons.mp distinct
    have absent {members' : List (Option String × Json)} (others : MembersAbridged spare
        (Abridged spare) (members.map fun m => (some m.1, m.2)) members') :
        ∀ member' ∈ members', member'.1 ≠ some member.1 := by
      intro member' inside same
      obtain ⟨named, known, key, -⟩ := others.origin member' inside
      obtain ⟨twin, mem, rfl⟩ := List.mem_map.mp known
      exact fresh (Option.some.inj (key.trans same) ▸ List.mem_map_of_mem mem)
    refine List.forall_mem_cons.mpr ?_
    cases h with
    | @keep _ _ value' _ _ related others =>
      refine ⟨⟨some value', onlyMember?_of_first (absent others), .kept related⟩, ?_⟩
      intro twin inside
      have other : member.1 ≠ twin.1 := fun same => fresh (same ▸ List.mem_map_of_mem inside)
      rw [onlyMember?_of_other other]
      exact ih distinct others twin inside
    | leave spared others =>
      exact ⟨⟨none, onlyMember?_of_absent (absent others), .left spared⟩, ih distinct others⟩

theorem fields_found {find : String → Option (Option Json)}
    {kept : String × Json → Option Json → Prop}
    (h : ∀ member ∈ members, ∃ field, find member.1 = some field ∧ kept member field) :
    ∃ fields, (members.map Prod.fst).mapM find = some fields ∧
      List.Forall₂ kept members fields := by
  induction members with
  | nil => exact ⟨[], rfl, .nil⟩
  | cons member members ih =>
    obtain ⟨⟨field, found, first⟩, others⟩ := List.forall_mem_cons.mp h
    obtain ⟨fields, foundOthers, each⟩ := ih others
    refine ⟨field :: fields, ?_, .cons first each⟩
    simp [List.mapM_cons, found, foundOthers]

/-- The fields of an abridged structure are read in the order of their distinct names, and there is
room for their values. -/
theorem fields?_abridged (names : List String) (written : members.map Prod.fst = names)
    (distinct : names.Nodup) {room : Nat} {j : Json} (shallow : (ofMembers members).depth ≤ room)
    (h : Abridged spare (ofMembers members) j) :
    ∃ inside fields, fields? names room j = some (inside, fields) ∧
      List.Forall₂ (FieldKept spare) members fields ∧
      ∀ member ∈ members, member.2.depth ≤ inside := by
  subst written
  obtain ⟨inside, rfl, fits⟩ := room_of_members shallow
  obtain ⟨members', rfl, related⟩ := h.of_object
  obtain ⟨fields, found, kept⟩ := fields_found (onlyMember?_abridged distinct related)
  have texts : members'.all (·.1.isSome) = true := by
    refine List.all_eq_true.mpr fun member' known => ?_
    obtain ⟨named, mem, key, -⟩ := related.origin member' known
    obtain ⟨member, -, rfl⟩ := List.mem_map.mp mem
    rw [← key]
    rfl
  refine ⟨inside, fields, ?_, kept, fits⟩
  rw [fields?, if_pos texts, found]
  rfl

/-! ## Readers -/

/-- Whether a reader makes a value of a document, and of what is left of the document when members
that can be spared are left out. -/
def ReadAs {α : Type} (spare : String → Json → Prop) (read : Json → Option α) (j : Json) (a : α) :
    Prop := ∀ j', Abridged spare j j' → read j' = some a

variable {α : Type} {read : Json → Option α} {value : Json} {a : α} {field : Option Json}

theorem FieldKept.required (h : FieldKept spare (key, value) field) (needed : ¬ spare key value)
    (reads : ReadAs spare read value a) : Json.required read field = some a := by
  cases h with
  | left spared => exact absurd spared needed
  | kept abridged => exact reads _ abridged

theorem FieldKept.defaulted {default : α} (h : FieldKept spare (key, value) field)
    (known : spare key value → a = default) (reads : ReadAs spare read value a) :
    Json.defaulted default read field = some a := by
  cases h with
  | left spared => rw [known spared, Json.defaulted]
  | kept abridged => exact reads _ abridged

theorem readAs_text (s : String) : ReadAs spare text? (ofText s) s := by
  intro j h
  rw [h.of_ofText]
  rfl

theorem readAs_option (s : Option String) : ReadAs spare option? (ofOption s) s := by
  intro j h
  rw [h.of_ofOption]
  cases s <;> rfl

theorem mapM_eq_some {values : List α} {items : List Json}
    (h : List.Forall₂ (fun value item => read item = some value) values items) :
    items.mapM read = some values := by
  induction h with
  | nil => rfl
  | cons first _ others => simp only [List.mapM_cons, first, others]; rfl

theorem readAs_list {read : Nat → Json → Option α} {write : α → Json} {values : List α} {room : Nat}
    (shallow : (array (values.map write)).depth ≤ room)
    (each : ∀ inside, ∀ value ∈ values, (write value).depth ≤ inside →
      ReadAs spare (read inside) (write value) value) :
    ReadAs spare (list? read room) (array (values.map write)) values := by
  intro j h
  obtain ⟨inside, rfl, fits⟩ := room_of_array shallow
  obtain ⟨items, rfl, related⟩ := h.of_array
  have reads : ∀ value ∈ values, ReadAs spare (read inside) (write value) value :=
    fun value known => each inside value known (fits _ (List.mem_map_of_mem known))
  have both := (List.forall₂_and_left _ _).mpr ⟨reads, List.forall₂_map_left_iff.mp related⟩
  exact mapM_eq_some (both.imp fun _ item ⟨reads, abridged⟩ => reads item abridged)

end

end ScriptBridge.Json
