import ScriptBridge.Proofs.Codec.Lists
import ScriptBridge.Proofs.Group.Entries
import ScriptBridge.Proofs.Value.Records
/-!
Records are read back, one level at a time.

A record is written as its entries between braces, and read as one reference an entry, since the
types of the entries are not known at that point. Each reference holds the text that the entry's
value was written as, for the application that the record came from, so that an entry that is a
record itself can be read in the same way.

`Storable` says which values may stand in such a record, to any depth. Every one of them is written
as an item (`Storable.writes`): a list of items is an item, an entry whose value is an item is one,
and so are entries between braces. With `splitRecord_entries` the entries come out as they went in
(`decodeAs_record`).
-/
namespace ScriptBridge.Codec

open Text ScriptBridge.Group

/-- A text that a value is written as, and that may be an item of a list. -/
structure Writes (codecs : List Codec) (value : Value) (text : String) : Prop where
  item : Item text.toList
  encoded : ∀ applications, encodeAs codecs applications value = .ok text

theorem RoundTrips.writes {codecs : List Codec} {target : ValueType} {value : Value} {text : String}
    (h : RoundTrips codecs target value text) : Writes codecs value text := ⟨h.item, h.encoded⟩

/-- Whether a value may stand in a record: the keys of a record are in order and may be those of
entries, and a text has neither braces nor backslashes. -/
inductive Storable : Value → Prop
  | null : Storable .null
  | integer (n : Int32) : Storable (.integer n)
  | short (n : Int16) : Storable (.short n)
  | long (n : Int64) : Storable (.long n)
  | boolean (b : Bool) : Storable (.boolean b)
  | point (p : Point) : Storable (.point p)
  | text {s : String} (h : '\\' ∉ s.toList ∧ '\x7b' ∉ s.toList ∧ '\x7d' ∉ s.toList) :
    Storable (.text s)
  | list {items : List Value} (h : ∀ item ∈ items, Storable item) : Storable (.list items)
  | map {entries : List (String × Value)} (sorted : Sorted entries)
    (named : ∀ entry ∈ entries, IsKey entry.1.toList)
    (h : ∀ entry ∈ entries, Storable entry.2) : Storable (.map entries)

/-- An entry as it is written, as a string. -/
def written (entry : String × String) : String := entry.1 ++ ": " ++ entry.2

theorem toList_written (entry : String × String) :
    (written entry).toList = entryText entry.1.toList entry.2.toList := by
  simp [written, entryText]

section
variable {codecs : List Codec}

/-! ## Items and entries, written one after another -/

theorem encodeItems_of_writes {items : List Value}
    (h : ∀ item ∈ items, ∃ text, Writes codecs item text) :
    ∃ texts : List String, (∀ text ∈ texts, Item text.toList) ∧
      ∀ applications, encodeItems codecs applications items = .ok texts := by
  induction items with
  | nil => exact ⟨[], by simp, fun _ => rfl⟩
  | cons item items ih =>
    rw [List.forall_mem_cons] at h
    obtain ⟨⟨text, first⟩, h⟩ := h
    obtain ⟨texts, rest, encoded⟩ := ih h
    refine ⟨text :: texts, List.forall_mem_cons.mpr ⟨first.item, rest⟩, ?_⟩
    intro applications
    rw [encodeItems, first.encoded]
    simp only [encoded]
    rfl

/-- What the values of entries are written as, under the same keys. -/
structure WritesEntries (codecs : List Codec) (entries : List (String × Value))
    (texts : List (String × String)) : Prop where
  items : ∀ entry ∈ texts, IsKey entry.1.toList ∧ Item entry.2.toList
  encoded : ∀ applications, encodeEntries codecs applications entries = .ok (texts.map written)
  each : ∀ applications,
    entries.map (Prod.map id (encodeAs codecs applications)) = texts.map (Prod.map id .ok)

theorem encodeEntries_of_writes {entries : List (String × Value)}
    (named : ∀ entry ∈ entries, IsKey entry.1.toList)
    (h : ∀ entry ∈ entries, ∃ text, Writes codecs entry.2 text) :
    ∃ texts, WritesEntries codecs entries texts := by
  induction entries with
  | nil => exact ⟨[], by simp, fun _ => rfl, fun _ => rfl⟩
  | cons entry entries ih =>
    obtain ⟨key, value⟩ := entry
    rw [List.forall_mem_cons] at named h
    obtain ⟨⟨text, first⟩, h⟩ := h
    obtain ⟨texts, rest⟩ := ih named.2 h
    refine ⟨(key, text) :: texts, ?_, ?_, ?_⟩
    · exact List.forall_mem_cons.mpr ⟨⟨named.1, first.item⟩, rest.items⟩
    · intro applications
      rw [encodeEntries, first.encoded]
      simp only [rest.encoded]
      rfl
    · intro applications
      rw [List.map_cons, List.map_cons, rest.each]
      exact congrArg (fun result => (key, result) :: texts.map (Prod.map id .ok))
        (first.encoded applications)

section
variable {entries : List (String × Value)} {texts : List (String × String)}
  (h : WritesEntries codecs entries texts)
include h

theorem WritesEntries.encodeAs_map (applications : Registry) :
    encodeAs codecs applications (.map entries) = .ok (inBraces (texts.map written)) := by
  rw [encodeAs, h.encoded]
  rfl

theorem WritesEntries.keys_eq (applications : Registry) : keys texts = keys entries := by
  have same := congrArg keys (h.each applications)
  rw [keys_map, keys_map] at same
  exact same.symm

end

theorem toList_entries (texts : List (String × String)) :
    (inBraces (texts.map written)).toList =
      listText (texts.map fun entry => entryText entry.1.toList entry.2.toList) := by
  rw [toList_inBraces, List.map_map]
  congr 1
  exact List.map_congr_left fun entry _ => toList_written entry

end

theorem Storable.writes {value : Value} (h : Storable value) (locale : String) :
    ∃ text, Writes (builtin locale) value text := by
  induction h with
  | null =>
    have nullable : ValueType.integer ∈ nullableTypes := by decide
    exact ⟨_, (roundTrips_null locale nullable).writes⟩
  | integer n => exact ⟨_, (roundTrips_integer locale n).writes⟩
  | short n => exact ⟨_, (roundTrips_short locale n).writes⟩
  | long n => exact ⟨_, (roundTrips_long locale n).writes⟩
  | boolean b => exact ⟨_, (roundTrips_boolean locale b).writes⟩
  | point p => exact ⟨_, (roundTrips_point locale p).writes⟩
  | text h => exact ⟨_, (roundTrips_text locale (item_of_plain h)).writes⟩
  | list h ih =>
    obtain ⟨texts, items, encoded⟩ := encodeItems_of_writes ih
    refine ⟨inBraces texts, ?_, ?_⟩
    · rw [toList_inBraces]
      exact Item.listText (List.forall_mem_map.mpr items)
    · intro applications
      rw [encodeAs, encoded]
      rfl
  | map sorted named h ih =>
    obtain ⟨texts, writes⟩ := encodeEntries_of_writes named ih
    refine ⟨inBraces (texts.map written), ?_, writes.encodeAs_map⟩
    rw [toList_entries]
    apply Item.listText
    rw [List.forall_mem_map]
    intro entry he
    exact Item.entry (writes.items entry he).1 (writes.items entry he).2

/-! ## Reading a record -/

theorem decodeAs_map_of_split {locale text : String} {entries : List (String × String)}
    (split : splitRecord text = .ok entries) (applications : Registry)
    (application : Option String) :
    decodeAs (builtin locale) applications .map (answer text application) =
      .ok (.map ((recordOf entries).map
        (Prod.map id fun item => .reference (answer item application)))) := by
  rw [decodeAs_map, ← recordOf_map]
  simp only [answer, decodeMap, split]
  rfl

/-- A record is written, and what is written is read as a record with the same keys, under each of
which stands the reference to the text that its value is written as, for whichever application the
record came from. -/
theorem decodeAs_record {entries : List (String × Value)} (h : Storable (.map entries))
    (locale : String) (applications : Registry) :
    ∃ (text : String) (texts : List (String × String)),
      encodeAs (builtin locale) applications (.map entries) = .ok text ∧
      entries.map (Prod.map id (encodeAs (builtin locale) applications)) =
        texts.map (Prod.map id .ok) ∧
      ∀ application,
        decodeAs (builtin locale) applications .map (answer text application) =
          .ok (.map (texts.map
            (Prod.map id fun item => .reference (answer item application)))) := by
  cases h with
  | map sorted named h =>
    obtain ⟨texts, writes⟩ :=
      encodeEntries_of_writes named fun entry he => (h entry he).writes locale
    refine ⟨_, texts, writes.encodeAs_map applications, writes.each applications, ?_⟩
    intro application
    have ordered : Sorted texts := by
      rw [sorted_iff] at sorted ⊢
      rwa [writes.keys_eq applications]
    have split : splitRecord (inBraces (texts.map written)) = .ok texts :=
      splitRecord_entries writes.items (toList_entries texts)
    rw [decodeAs_map_of_split split, recordOf_of_sorted ordered]

/-- A record with a record in it, an empty key, and a text that holds what divides entries. -/
theorem decodeAs_record_nested :
    Storable (.map [("", .list [.text "a: \"é\", b"]), ("in \\", .map [("k", .null)])]) ∧
      ∃ (text : String) (texts : List (String × String)), encodeAs (builtin "en_US") {}
          (.map [("", .list [.text "a: \"é\", b"]), ("in \\", .map [("k", .null)])]) = .ok text ∧
        [("", Value.list [.text "a: \"é\", b"]), ("in \\", .map [("k", .null)])].map
          (Prod.map id (encodeAs (builtin "en_US") {})) = texts.map (Prod.map id .ok) ∧
        ∀ application, decodeAs (builtin "en_US") {} .map (answer text application) =
          .ok (.map (texts.map
            (Prod.map id fun item => .reference (answer item application)))) := by
  have words : Storable (.text "a: \"é\", b") := .text (by simp)
  have inner : Storable (.map [("k", .null)]) :=
    .map (List.pairwise_singleton _ _) (by decide) (List.forall_mem_singleton.mpr .null)
  have list : Storable (.list [.text "a: \"é\", b"]) := .list (List.forall_mem_singleton.mpr words)
  have h : Storable (.map [("", .list [.text "a: \"é\", b"]), ("in \\", .map [("k", .null)])]) := by
    have named : IsKey "in \\".toList := by decide
    apply Storable.map (List.pairwise_pair.mpr (by decide))
      (List.forall_mem_cons.mpr ⟨by decide, List.forall_mem_singleton.mpr named⟩)
    exact List.forall_mem_cons.mpr ⟨list, List.forall_mem_singleton.mpr inner⟩
  exact ⟨h, decodeAs_record h "en_US" {}⟩

end ScriptBridge.Codec
