import ScriptBridge.Codec.Chain
import ScriptBridge.Proofs.Group.Scan
import ScriptBridge.Proofs.Number.Digits
import ScriptBridge.Proofs.Text.Occurrences
/-!
Numbers in braces.

Integers and compounds of integers are written with characters that mean nothing to the scanner of
groups, so they are items of lists. A compound is cut at its commas and each number is trimmed, so
the numbers come out as they went in if they fit into 64 bits (`readTuple_braced`).
-/
namespace ScriptBridge.Codec

open Text ScriptBridge.Group Number

theorem mapM_eq_ok {α β ε : Type} {f : α → Except ε β} {g : α → β} {items : List α}
    (h : ∀ item ∈ items, f item = .ok (g item)) : items.mapM f = .ok (items.map g) := by
  induction items with
  | nil => rfl
  | cons item items ih =>
    rw [List.mapM_cons, h item List.mem_cons_self,
      ih fun x hx => h x (List.mem_cons_of_mem item hx)]
    rfl

/-! ## Strings between braces -/

theorem toList_inBraces (texts : List String) :
    (inBraces texts).toList = listText (texts.map String.toList) := by
  simp [inBraces, listText, joined]

theorem toList_braced (numbers : List Int) :
    (braced numbers).toList = listText (numbers.map intText) := by
  rw [show braced numbers = inBraces (numbers.map showInt) from rfl, toList_inBraces, List.map_map]
  congr 1
  exact List.map_congr_left fun n _ => String.toList_ofList

/-! ## Numbers as items -/

theorem isBlank_of_visible {c : Char} (h₁ : 33 ≤ c.toNat) (h₂ : c.toNat ≤ 126) :
    isBlank c = false := by
  simp only [isBlank]
  simp
  omega

theorem toNat_of_isAlphanum {c : Char} (h : c.isAlphanum = true) :
    48 ≤ c.toNat ∧ c.toNat ≤ 122 := by
  have h : ((c.isUpper || c.isLower) || c.isDigit) = true := h
  rw [Bool.or_eq_true, Bool.or_eq_true] at h
  rcases h with (h | h) | h
  · have range : 'A'.val ≤ c.val ∧ c.val ≤ 'Z'.val := of_decide_eq_true h
    exact ⟨Nat.le_trans (by decide) range.1, Nat.le_trans range.2 (by decide)⟩
  · have range : (decide ('a'.val ≤ c.val) && decide (c.val ≤ 'z'.val)) = true := h
    rw [Bool.and_eq_true, decide_eq_true_eq, decide_eq_true_eq] at range
    exact ⟨Nat.le_trans (by decide) range.1, Nat.le_trans range.2 (by decide)⟩
  · rw [Char.isDigit_iff_toNat] at h
    exact ⟨h.1, Nat.le_trans h.2 (by decide)⟩

theorem plain_of_isAlphanum {c : Char} (h : c.isAlphanum = true) :
    isInert c = true ∧ isBlank c = false := by
  have ne (x : Char) (hx : x.isAlphanum = false) : c ≠ x := by
    rintro rfl
    rw [hx] at h
    exact absurd h (by decide)
  constructor
  · simp [isInert, ne '"' (by decide), ne '\\' (by decide), ne ',' (by decide),
      ne '\x7b' (by decide), ne '\x7d' (by decide)]
  · have range := toNat_of_isAlphanum h
    exact isBlank_of_visible (by omega) (by omega)

theorem plain_of_isNumeral {c : Char} (h : isNumeral c = true) :
    isInert c = true ∧ isBlank c = false := by
  rw [isNumeral, Bool.or_eq_true, beq_iff_eq] at h
  rcases h with h | rfl
  · exact plain_of_isAlphanum (by rw [Char.isAlphanum, h, Bool.or_true])
  · decide

theorem intText_tight (n : Int) : Tight (intText n) :=
  Tight.of_none_blank (intText_ne_nil n) fun c hc => (plain_of_isNumeral (isNumeral_of_mem c hc)).2

theorem intText_inert (n : Int) : Inert (intText n) :=
  fun c hc => (plain_of_isNumeral (isNumeral_of_mem c hc)).1

theorem intText_item (n : Int) : Item (intText n) :=
  Item.of_inert (intText_tight n) (intText_inert n)

theorem braced_item (numbers : List Int) : Item (braced numbers).toList := by
  rw [toList_braced]
  exact Item.listText (List.forall_mem_map.mpr fun n _ => intText_item n)

/-! ## Cutting at commas -/

theorem map_trim_splitOn_blank {isSeparator : Char → Bool} {c : Char} (hc : isSeparator c = false)
    (hb : isBlank c = true) (rest : List Char) :
    (splitOn isSeparator (c :: rest)).map trim = (splitOn isSeparator rest).map trim := by
  have blank : AllBlank [c] := by simpa [AllBlank] using hb
  obtain ⟨piece, pieces, h⟩ := List.exists_cons_of_ne_nil (splitOn_ne_nil isSeparator rest)
  rw [splitOn, if_neg (by simp [hc]), h, List.map_cons, List.map_cons]
  exact congrArg (· :: pieces.map trim) (trim_blank_append blank piece)

theorem map_trim_splitOn_joined {items : List (List Char)} (hne : items ≠ [])
    (h : ∀ t ∈ items, Tight t ∧ Inert t) :
    (splitOn (· == ',') (joined items)).map trim = items := by
  induction items with
  | nil => exact absurd rfl hne
  | cons t items ih =>
    rw [List.forall_mem_cons] at h
    obtain ⟨⟨tight, inert⟩, h⟩ := h
    have hc : ∀ c ∈ t, (c == ',') = false := by
      intro c hc
      have := inert c hc
      simp only [isInert, Bool.and_eq_true, bne_iff_ne, ne_eq] at this
      simpa using this.1.1.2
    cases items with
    | nil =>
      rw [joined, List.intercalate_singleton, splitOn_of_none hc, List.map_singleton, tight.trim_eq]
    | cons u items =>
      rw [joined_cons_cons,
        show [',', ' '] ++ joined (u :: items) = ',' :: ' ' :: joined (u :: items) from rfl,
        splitOn_append hc (by decide), List.map_cons, tight.trim_eq,
        map_trim_splitOn_blank (by decide) (by decide), ih (by simp) h]

/-! ## Compounds of numbers -/

theorem readInt64_toInt {n : Int} (hl : -9223372036854775808 ≤ n) (hg : n ≤ 9223372036854775807) :
    ∃ m, readInt64 (intText n) = .ok m ∧ m.toInt = n := by
  refine ⟨Int64.ofInt n, ?_, Int64.toInt_ofInt_of_le hl (by omega)⟩
  rw [readInt64, readInteger_intText (by omega) (by omega)]
  rfl

theorem readTuple_braced (kind : TupleKind) {numbers : List Int} (hne : numbers ≠ [])
    (h : ∀ n ∈ numbers, -9223372036854775808 ≤ n ∧ n ≤ 9223372036854775807) :
    readTuple kind numbers.length (braced numbers) = .ok numbers := by
  have tight : Tight (listText (numbers.map intText)) := Tight.of_ends (by decide) (by decide) _
  have inner : between? ['\x7b'] ['\x7d'] (listText (numbers.map intText)) =
      some (joined (numbers.map intText)) := between?_append ['\x7b'] _ ['\x7d']
  have pieces : (splitOn (· == ',') (joined (numbers.map intText))).map trim =
      numbers.map intText := by
    apply map_trim_splitOn_joined (by simpa using hne)
    exact List.forall_mem_map.mpr fun n _ => ⟨intText_tight n, intText_inert n⟩
  rw [readTuple, toList_braced, tight.trim_eq, inner]
  simp only [pieces, List.length_map, ne_eq, not_true_eq_false, if_false, List.mapM_map]
  refine (mapM_eq_ok (g := id) fun n hn => ?_).trans (congrArg Except.ok (List.map_id numbers))
  obtain ⟨m, hm, e⟩ := readInt64_toInt (h n hn).1 (h n hn).2
  simp only [Function.comp_apply, hm, e, id_eq]

end ScriptBridge.Codec
