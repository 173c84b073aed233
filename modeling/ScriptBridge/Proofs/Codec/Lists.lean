import ScriptBridge.Proofs.Codec.Leaves
import ScriptBridge.Proofs.Group.Exact
/-!
Lists are read back.

A list of items that survive the chain of codecs survives it too, since it is an item itself
(`RoundTrips.list`). So does every value of a type that is built from the types of the leaves by
lists, at any depth (`decodeAs_encodeAs`); of texts it must be known that they are items, for which
it is enough that they have neither braces nor backslashes.

With one of the two but not the other, lists of texts come back exactly if the condition on each
text holds under which its literal is an item: without backslashes `BracesCancel`
(`decode_texts_iff`), and without braces `InStep` (`splitList_texts_iff`).
-/
namespace ScriptBridge.Codec

open Text ScriptBridge.Group Literal

/-! ## Values that are read back -/

/-- Whether a value is of a type, and each of its leaves is one that is read back. -/
inductive Conforms : ValueType → Value → Prop
  | null {target : ValueType} (h : target ∈ nullableTypes) : Conforms target .null
  | integer (n : Int32) : Conforms .integer (.integer n)
  | short (n : Int16) : Conforms .short (.short n)
  | long (n : Int64) : Conforms .long (.long n)
  | boolean (b : Bool) : Conforms .boolean (.boolean b)
  | point (p : Point) : Conforms .point (.point p)
  | rectangle {r : Rectangle} (h : HasFarCorner r) : Conforms .rectangle (.rectangle r)
  | rgbColor (c : Color) : Conforms .rgbColor (.rgbColor c)
  | data {d : Data} (h : HasPlainKind d) : Conforms .data (.data d)
  | picture {d : Data} (h : HasPlainKind d) : Conforms .picture (.picture d)
  | typedData {d : Data} (h : HasPlainKind d) : Conforms .typedData (.typedData d)
  | text {s : String} (h : '\\' ∉ s.toList ∧ '\x7b' ∉ s.toList ∧ '\x7d' ∉ s.toList) :
    Conforms .text (.text s)
  | list {element : ValueType} {items : List Value} (h : ∀ item ∈ items, Conforms element item) :
    Conforms (.list element) (.list items)

/-- Without braces and backslashes in the text, its literal is an item. -/
theorem item_of_plain {t : List Char} (h : '\\' ∉ t ∧ '\x7b' ∉ t ∧ '\x7d' ∉ t) :
    Item (quote t) := by
  obtain ⟨hb, hz⟩ := h
  have hz := braceless_of_not_mem hz
  refine item_of_bracesCancel hb ⟨openBraces_eq_zero hz, fun before c after e _ => ?_⟩
  rw [openBraces_eq_zero fun x hx => hz x (by rw [e]; exact List.mem_append_left _ hx)]

/-! ## Lists -/

theorem find?_list (locale : String) (element : ValueType) :
    find? (builtin locale) (.list element) = none := rfl

section
variable {locale : String} {element : ValueType}

theorem decodeAs_list {text : String} {segments : List String}
    (h : splitList text = .ok segments) (applications : Registry) (application : Option String) :
    decodeAs (builtin locale) applications (.list element) (answer text application) =
      (segments.mapM fun segment =>
        decodeAs (builtin locale) applications element (answer segment application)).map .list := by
  rw [decodeAs, find?_list]
  simp only [answer, h]
  rfl

theorem splitList_inBraces {texts : List String} (h : ∀ t ∈ texts, Item t.toList) :
    splitList (inBraces texts) = .ok texts := by
  have items : segments? (listText (texts.map String.toList)) = some (texts.map String.toList) :=
    segments?_listText (List.forall_mem_map.mpr h)
  rw [splitList, toList_inBraces, items]
  simp [List.map_map]

theorem roundTrips_items {items : List Value}
    (h : ∀ item ∈ items, ∃ text, RoundTrips (builtin locale) element item text) :
    ∃ texts : List String, (∀ t ∈ texts, Item t.toList) ∧
      (∀ applications, encodeItems (builtin locale) applications items = .ok texts) ∧
      ∀ applications application, (texts.mapM fun t =>
        decodeAs (builtin locale) applications element (answer t application)) = .ok items := by
  induction items with
  | nil => exact ⟨[], by simp, fun _ => rfl, fun _ _ => rfl⟩
  | cons item items ih =>
    rw [List.forall_mem_cons] at h
    obtain ⟨text, ht⟩ := h.1
    obtain ⟨texts, hitems, hencoded, hdecoded⟩ := ih h.2
    refine ⟨text :: texts, List.forall_mem_cons.mpr ⟨ht.item, hitems⟩, fun applications => ?_,
      fun applications application => ?_⟩
    · rw [encodeItems, ht.encoded]
      simp only [hencoded]
      rfl
    · rw [List.mapM_cons, ht.decoded, hdecoded]
      rfl

theorem RoundTrips.list {items : List Value}
    (h : ∀ item ∈ items, ∃ text, RoundTrips (builtin locale) element item text) :
    ∃ text, RoundTrips (builtin locale) (.list element) (.list items) text := by
  obtain ⟨texts, hitems, hencoded, hdecoded⟩ := roundTrips_items h
  refine ⟨inBraces texts, ?_, fun applications => ?_, fun applications application => ?_⟩
  · rw [toList_inBraces]
    exact Item.listText (List.forall_mem_map.mpr hitems)
  · rw [encodeAs, hencoded]
    rfl
  · rw [decodeAs_list (splitList_inBraces hitems), hdecoded]
    rfl

end

theorem Conforms.roundTrips {target : ValueType} {value : Value} (h : Conforms target value)
    (locale : String) : ∃ text, RoundTrips (builtin locale) target value text := by
  induction h with
  | null h => exact ⟨_, roundTrips_null locale h⟩
  | integer n => exact ⟨_, roundTrips_integer locale n⟩
  | short n => exact ⟨_, roundTrips_short locale n⟩
  | long n => exact ⟨_, roundTrips_long locale n⟩
  | boolean b => exact ⟨_, roundTrips_boolean locale b⟩
  | point p => exact ⟨_, roundTrips_point locale p⟩
  | rectangle h => exact ⟨_, roundTrips_rectangle locale h⟩
  | rgbColor c => exact ⟨_, roundTrips_rgbColor locale c⟩
  | data h => exact ⟨_, roundTrips_data locale h⟩
  | picture h => exact ⟨_, roundTrips_picture locale h⟩
  | typedData h => exact ⟨_, roundTrips_typedData locale h⟩
  | text h => exact ⟨_, roundTrips_text locale (item_of_plain h)⟩
  | list h ih => exact RoundTrips.list ih

/-- Values of nested lists are written, and what is written is read as the value, for whichever
application it came from. -/
theorem decodeAs_encodeAs {target : ValueType} {value : Value} (h : Conforms target value)
    (locale : String) (applications : Registry) :
    ∃ text, encodeAs (builtin locale) applications value = .ok text ∧
      ∀ application,
        decodeAs (builtin locale) applications target (answer text application) = .ok value := by
  obtain ⟨text, ht⟩ := h.roundTrips locale
  exact ⟨text, ht.encoded applications, ht.decoded applications⟩

/-- An empty list and one with a comma, quotes and a character beyond ASCII, in a list. -/
theorem decodeAs_encodeAs_nested :
    Conforms (.list (.list .text)) (.list [.list [], .list [.text "é, \"b\""]]) ∧
      ∃ text, encodeAs (builtin "en_US") {} (.list [.list [], .list [.text "é, \"b\""]]) =
        .ok text ∧ ∀ application,
          decodeAs (builtin "en_US") {} (.list (.list .text)) (answer text application) =
            .ok (.list [.list [], .list [.text "é, \"b\""]]) := by
  have words : Conforms .text (.text "é, \"b\"") := .text (by decide)
  have inner : Conforms (.list .text) (.list [.text "é, \"b\""]) :=
    .list (List.forall_mem_singleton.mpr words)
  have empty : Conforms (.list .text) (.list []) := .list (by simp)
  have h : Conforms (.list (.list .text)) (.list [.list [], .list [.text "é, \"b\""]]) :=
    .list (List.forall_mem_cons.mpr ⟨empty, List.forall_mem_singleton.mpr inner⟩)
  exact ⟨h, decodeAs_encodeAs h "en_US" {}⟩

/-! ## Lists of texts -/

/-- The literal of a text, as a string. -/
def literal (s : String) : String := String.ofList (quote s.toList)

section
variable (locale : String) (applications : Registry)

theorem encodeAs_text (s : String) :
    encodeAs (builtin locale) applications (.text s) = .ok (literal s) := by
  rw [encodeAs_eq_encodeWith (by simp [Value.valueType, codecTypes]), encodeWith, find?_accepts]
  rfl

theorem encodeAs_texts (texts : List String) :
    encodeAs (builtin locale) applications (.list (texts.map .text)) =
      .ok (inBraces (texts.map literal)) := by
  have items : encodeItems (builtin locale) applications (texts.map .text) =
      .ok (texts.map literal) := by
    induction texts with
    | nil => rfl
    | cons s texts ih =>
      rw [List.map_cons, encodeItems, encodeAs_text]
      simp only [ih]
      rfl
  rw [encodeAs, items]
  rfl

theorem toList_literals (texts : List String) :
    (inBraces (texts.map literal)).toList = listText ((texts.map String.toList).map quote) := by
  rw [toList_inBraces, List.map_map, List.map_map]
  congr 1
  exact List.map_congr_left fun s _ => String.toList_ofList

theorem decodeAs_texts {text : String} {segments : List (List Char)}
    (h : segments? text.toList = some segments) (application : Option String) :
    decodeAs (builtin locale) applications (.list .text) (answer text application) =
      .ok (.list ((segments.map unquote).map fun s => .text (String.ofList s))) := by
  have split : splitList text = .ok (segments.map String.ofList) := by rw [splitList, h]
  have item (s : List Char) :
      decodeAs (builtin locale) applications .text (answer (String.ofList s) application) =
        .ok (.text (String.ofList (unquote s))) :=
    decodeAs_of_codec (show find? (builtin locale) .text = some Codec.text from rfl)
      (text_decode s application) applications
  have items : (segments.map String.ofList).mapM (fun segment =>
      decodeAs (builtin locale) applications .text (answer segment application)) =
        .ok (segments.map fun s => .text (String.ofList (unquote s))) := by
    rw [List.mapM_map]
    exact mapM_eq_ok fun s _ => item s
  rw [decodeAs_list split, items, List.map_map]
  rfl

theorem decodeAs_unbalanced {text : String} (h : segments? text.toList = none)
    (application : Option String) :
    decodeAs (builtin locale) applications (.list .text) (answer text application) =
      .error (.format (.list text)) := by
  rw [decodeAs, find?_list]
  simp only [answer, splitList, h]

/-- Lists of texts without backslashes are read back exactly if the braces of each text cancel each
other. -/
theorem decode_texts_iff {texts : List String} (hb : ∀ s ∈ texts, '\\' ∉ s.toList) :
    ∃ text, encodeAs (builtin locale) applications (.list (texts.map .text)) = .ok text ∧
      ∀ application,
        decodeAs (builtin locale) applications (.list .text) (answer text application) =
          .ok (.list (texts.map .text)) ↔ ∀ s ∈ texts, BracesCancel s.toList := by
  have hb' : ∀ t ∈ texts.map String.toList, '\\' ∉ t := List.forall_mem_map.mpr hb
  refine ⟨_, encodeAs_texts locale applications texts, fun application => ?_⟩
  have exact := segments?_texts_iff hb'
  rw [← toList_literals, List.forall_mem_map] at exact
  rw [← exact]
  have back : (texts.map String.toList).map (fun s => Value.text (String.ofList s)) =
      texts.map .text := by
    rw [List.map_map]
    exact List.map_congr_left fun s _ => congrArg Value.text String.ofList_toList
  -- Decoding fails only if the list is not balanced; each segment reads as some text.
  cases hs : segments? (inBraces (texts.map literal)).toList with
  | none =>
    rw [decodeAs_unbalanced locale applications hs]
    simp
  | some segments =>
    rw [decodeAs_texts locale applications hs, ← back]
    have injective (a b : List Char) (h : Value.text (String.ofList a) = .text (String.ofList b)) :
        a = b := String.ofList_injective (Value.text.inj h)
    rw [Except.ok.injEq, Value.list.injEq, List.map_inj_right injective]
    simp only [Option.some.injEq, exists_eq_left']

/-- Braces that cancel each other come back; around a character that is written as data they do so
only in their order. -/
theorem decode_texts_braces :
    (∀ s ∈ ["\x7bé\x7d", "\x7da\x7b"], '\\' ∉ s.toList) ∧
      (∃ text, encodeAs (builtin "en_US") {} (.list [.text "\x7bé\x7d", .text "\x7da\x7b"]) =
        .ok text ∧ ∀ application,
          decodeAs (builtin "en_US") {} (.list .text) (answer text application) =
            .ok (.list [.text "\x7bé\x7d", .text "\x7da\x7b"])) ∧
      (∀ s ∈ ["\x7dé\x7b"], '\\' ∉ s.toList) ∧
      ∃ text, encodeAs (builtin "en_US") {} (.list [.text "\x7dé\x7b"]) = .ok text ∧
        ∀ application,
          decodeAs (builtin "en_US") {} (.list .text) (answer text application) ≠
            .ok (.list [.text "\x7dé\x7b"]) := by
  have h₁ : ∀ s ∈ ["\x7bé\x7d", "\x7da\x7b"], '\\' ∉ s.toList := by decide
  have h₂ : ∀ s ∈ ["\x7dé\x7b"], '\\' ∉ s.toList := by decide
  obtain ⟨text, written, back⟩ := decode_texts_iff "en_US" {} h₁
  obtain ⟨gap, gapWritten, gapBack⟩ := decode_texts_iff "en_US" {} h₂
  refine ⟨h₁, ⟨text, written, fun application => (back application).mpr (by decide)⟩, h₂, gap,
    gapWritten, fun application h => ?_⟩
  exact absurd ((gapBack application).mp h) (by decide)

/-- Between braces the literals of texts without braces come out as they went in exactly if the
scanner is in step with each of them. -/
theorem splitList_texts_iff {texts : List String}
    (hb : ∀ s ∈ texts, '\x7b' ∉ s.toList ∧ '\x7d' ∉ s.toList) :
    ∃ text, encodeAs (builtin locale) applications (.list (texts.map .text)) = .ok text ∧
      (splitList text = .ok (texts.map literal) ↔ ∀ s ∈ texts, InStep s.toList) := by
  have hb' : ∀ t ∈ texts.map String.toList, Braceless t :=
    List.forall_mem_map.mpr fun s hs => braceless_of_not_mem (hb s hs)
  refine ⟨_, encodeAs_texts locale applications texts, ?_⟩
  have exact := segments?_quotes_iff hb'
  rw [← toList_literals, List.forall_mem_map] at exact
  rw [← exact, splitList]
  have back : ((texts.map String.toList).map quote).map String.ofList = texts.map literal := by
    rw [List.map_map, List.map_map]
    rfl
  cases segments? (inBraces (texts.map literal)).toList with
  | none => simp
  | some segments =>
    rw [← back]
    simp only [Except.ok.injEq, Option.some.injEq]
    exact List.map_inj_right fun _ _ => String.ofList_injective

/-- Backslashes come back inside of a run, and at the end of two runs; at the end of one run they do
not. -/
theorem splitList_texts_backslashes :
    (∀ s ∈ ["a\\, b", "\\é\\"], '\x7b' ∉ s.toList ∧ '\x7d' ∉ s.toList) ∧
      (∃ text, encodeAs (builtin "en_US") {} (.list [.text "a\\, b", .text "\\é\\"]) = .ok text ∧
        splitList text = .ok [literal "a\\, b", literal "\\é\\"]) ∧
      (∀ s ∈ ["\\"], '\x7b' ∉ s.toList ∧ '\x7d' ∉ s.toList) ∧
      ∃ text, encodeAs (builtin "en_US") {} (.list [.text "\\"]) = .ok text ∧
        splitList text ≠ .ok [literal "\\"] := by
  have h₁ : ∀ s ∈ ["a\\, b", "\\é\\"], '\x7b' ∉ s.toList ∧ '\x7d' ∉ s.toList := by decide
  have h₂ : ∀ s ∈ ["\\"], '\x7b' ∉ s.toList ∧ '\x7d' ∉ s.toList := by decide
  obtain ⟨text, written, back⟩ := splitList_texts_iff "en_US" {} h₁
  obtain ⟨last, lastWritten, lastBack⟩ := splitList_texts_iff "en_US" {} h₂
  refine ⟨h₁, ⟨text, written, back.mpr (by decide)⟩, h₂, last, lastWritten, fun h => ?_⟩
  exact absurd (lastBack.mp h) (by decide)

end

end ScriptBridge.Codec
