import Mathlib.Data.List.Forall2
import ScriptBridge.Proofs.Diagnostic.Escapes
/-!
Texts of which every character is escaped.

The interpreter works with the UTF-16 units of a text and writes an escape for each. A character of
the basic plane is one unit, which is its number, and comes back from its escape. A character beyond
is two units, and neither is the number of a character, so that both escapes stay as they are
(`unescape_piece`). A text comes back exactly if all of its characters are of the basic plane
(`unescape_spelled_iff`).
-/
namespace ScriptBridge.Diagnostic

/-- Whether the number of a character fits into sixteen bits. -/
def IsBasic (c : Char) : Prop := c.toNat < 0x10000

instance (c : Char) : Decidable (IsBasic c) := inferInstanceAs (Decidable (_ < _))

/-- The UTF-16 units of a character: its number, or two surrogates with ten bits each of what its
number is above sixteen bits. -/
def units (c : Char) : List Nat :=
  if IsBasic c then [c.toNat]
  else [0xD800 + (c.toNat - 0x10000) / 0x400, 0xDC00 + (c.toNat - 0x10000) % 0x400]

/-- A text of one escape for each of some units. -/
inductive Spells : List Nat → List Char → Prop
  | nil : Spells [] []
  | cons {unit : Nat} {units : List Nat} {digits text : List Char} (writes : Writes digits unit)
      (more : Spells units text) : Spells (unit :: units) (mark ++ digits ++ text)

/-- What comes of the escapes of a character. -/
def restored (c : Char) (piece : List Char) : List Char := if IsBasic c then [c] else piece

/-! ## One escape -/

theorem Writes.forall_ne {digits : List Char} {n : Nat} (h : Writes digits n) :
    ∀ c ∈ digits, c ≠ '\\' := by
  intro c inside
  obtain ⟨v, digit⟩ := exists_digit_of_number? h.number?_eq c inside
  rintro rfl
  exact absurd digit (by rw [show Hex.digit? '\\' = none from by decide]; simp)

theorem unescape_escape {digits : List Char} {char : Char} (names : Writes digits char.toNat)
    (rest : List Char) : unescape (mark ++ digits ++ rest) = char :: unescape rest :=
  unescape_of_onePass (.escape names (onePass_unescape rest))

/-- An escape stays if its number is that of no character. -/
theorem unescape_unnamed {digits : List Char} {n : Nat} (writes : Writes digits n)
    (unnamed : ¬n.isValidChar) (rest : List Char) :
    unescape (mark ++ digits ++ rest) = mark ++ digits ++ unescape rest := by
  have none : escaped? (digits ++ rest) = none := by
    rw [Option.eq_none_iff_forall_ne_some]
    rintro ⟨char, after⟩ named
    obtain ⟨digits', names, whole⟩ := escaped?_eq_some_iff.mp named
    obtain ⟨rfl, -⟩ := List.append_inj whole (writes.four.trans names.four.symm)
    exact unnamed (writes.unique names ▸ char.valid)
  rw [List.append_assoc, List.append_assoc]
  exact unescape_of_onePass (.mark_append none (.append writes.forall_ne (onePass_unescape rest)))

/-! ## The escapes of units -/

theorem spells_nil_iff {text : List Char} : Spells [] text ↔ text = [] := by
  constructor
  · intro h
    cases h
    rfl
  · rintro rfl
    exact .nil

theorem spells_cons_iff {unit : Nat} {units : List Nat} {text : List Char} :
    Spells (unit :: units) text ↔
      ∃ digits more, Writes digits unit ∧ Spells units more ∧ text = mark ++ digits ++ more := by
  constructor
  · rintro (_ | ⟨writes, more⟩)
    exact ⟨_, _, writes, more, rfl⟩
  · rintro ⟨digits, more, writes, others, rfl⟩
    exact .cons writes others

theorem exists_append_of_spells {us vs : List Nat} {text : List Char} (h : Spells (us ++ vs) text) :
    ∃ a b, text = a ++ b ∧ Spells us a ∧ Spells vs b := by
  induction us generalizing text with
  | nil => exact ⟨[], text, rfl, .nil, h⟩
  | cons unit us ih =>
    obtain ⟨digits, _, writes, more, rfl⟩ := spells_cons_iff.mp h
    obtain ⟨a, b, rfl, first, second⟩ := ih more
    exact ⟨_, b, by simp only [List.append_assoc], .cons writes first, second⟩

/-! ## The escapes of a character -/

theorem units_valid {c : Char} (astral : ¬IsBasic c) :
    ¬(0xD800 + (c.toNat - 0x10000) / 0x400).isValidChar ∧
      ¬(0xDC00 + (c.toNat - 0x10000) % 0x400).isValidChar := by
  have range := Utf8.char_range c
  unfold IsBasic at astral
  unfold Nat.isValidChar
  omega

theorem unescape_piece {c : Char} {piece : List Char} (h : Spells (units c) piece)
    (rest : List Char) : unescape (piece ++ rest) = restored c piece ++ unescape rest := by
  by_cases basic : IsBasic c
  · rw [units, if_pos basic, spells_cons_iff] at h
    obtain ⟨digits, _, names, none, rfl⟩ := h
    rw [spells_nil_iff.mp none, List.append_nil, unescape_escape names, restored, if_pos basic,
      List.singleton_append]
  · rw [units, if_neg basic, spells_cons_iff] at h
    obtain ⟨digits, _, high, more, rfl⟩ := h
    rw [spells_cons_iff] at more
    obtain ⟨digits', _, low, none, rfl⟩ := more
    obtain ⟨highUnnamed, lowUnnamed⟩ := units_valid basic
    rw [spells_nil_iff.mp none, restored, if_neg basic, List.append_nil, List.append_assoc _ _ rest,
      unescape_unnamed high highUnnamed, unescape_unnamed low lowUnnamed]
    simp only [List.append_assoc]

theorem exists_cons_of_spells {c : Char} {piece : List Char} (h : Spells (units c) piece) :
    ∃ rest, piece = '\\' :: rest := by
  obtain ⟨unit, rest, e⟩ : ∃ unit rest, units c = unit :: rest := by
    unfold units
    split <;> exact ⟨_, _, rfl⟩
  rw [e, spells_cons_iff] at h
  obtain ⟨digits, more, -, -, rfl⟩ := h
  exact ⟨_, rfl⟩

/-! ## The escapes of a text -/

theorem exists_pieces {s text : List Char} (h : Spells (s.flatMap units) text) :
    ∃ pieces, List.Forall₂ (fun c piece => Spells (units c) piece) s pieces ∧
      text = pieces.flatten := by
  induction s generalizing text with
  | nil =>
    rw [List.flatMap_nil, spells_nil_iff] at h
    exact ⟨[], .nil, h⟩
  | cons c s ih =>
    obtain ⟨piece, more, rfl, first, others⟩ := exists_append_of_spells h
    obtain ⟨pieces, spelled, rfl⟩ := ih others
    exact ⟨piece :: pieces, .cons first spelled, rfl⟩

section
variable {s : List Char} {pieces : List (List Char)}
  (h : List.Forall₂ (fun c piece => Spells (units c) piece) s pieces)
include h

theorem unescape_pieces :
    unescape pieces.flatten = (List.zipWith restored s pieces).flatten := by
  induction h with
  | nil => exact unescape_of_onePass .done
  | cons first _ ih =>
    rw [List.flatten_cons, unescape_piece first, ih, List.zipWith_cons_cons, List.flatten_cons]

theorem restored_eq_iff :
    (List.zipWith restored s pieces).flatten = s ↔ ∀ c ∈ s, IsBasic c := by
  induction h with
  | nil => exact iff_of_true rfl (by simp)
  | @cons c piece s pieces first _ ih =>
    rw [List.zipWith_cons_cons, List.flatten_cons, List.forall_mem_cons, ← ih, restored]
    by_cases basic : IsBasic c
    · rw [if_pos basic, List.singleton_append, List.cons.injEq]
      simp only [basic, true_and]
    · -- What comes back starts with a backslash, and that is a character of the basic plane.
      obtain ⟨rest, rfl⟩ := exists_cons_of_spells first
      rw [if_neg basic]
      refine iff_of_false (fun same => basic ?_) fun both => basic both.1
      rw [← (List.cons.inj same).1]
      decide

end

/-- The text that spells each UTF-16 unit of another as an escape is turned back into it exactly if
all of its characters are of the basic plane; of the others the escapes stay. -/
theorem unescape_spelled_iff {s text : List Char} (h : Spells (s.flatMap units) text) :
    (unescape text = s ↔ ∀ c ∈ s, IsBasic c) ∧
      ∃ pieces, List.Forall₂ (fun c piece => Spells (units c) piece) s pieces ∧
        text = pieces.flatten ∧ unescape text = (List.zipWith restored s pieces).flatten := by
  obtain ⟨pieces, spelled, rfl⟩ := exists_pieces h
  have read := unescape_pieces spelled
  refine ⟨?_, pieces, spelled, rfl, read⟩
  rw [read, restored_eq_iff spelled]

/-- An accent and an ideograph come back, with digits in either case, and a face does not. -/
theorem unescape_spelled_face :
    Spells ("é語".toList.flatMap units) "\\U00e9\\U8A9e".toList ∧
      unescape "\\U00e9\\U8A9e".toList = "é語".toList ∧
      Spells ("é😀".toList.flatMap units) "\\U00e9\\Ud83d\\Ude00".toList ∧
      unescape "\\U00e9\\Ud83d\\Ude00".toList ≠ "é😀".toList := by
  have accent : Writes "00e9".toList 0xE9 := ⟨by decide, [0, 0, 14, 9], by decide, by decide⟩
  have ideograph : Writes "8A9e".toList 0x8A9E := ⟨by decide, [8, 10, 9, 14], by decide, by decide⟩
  have high : Writes "d83d".toList 0xD83D := ⟨by decide, [13, 8, 3, 13], by decide, by decide⟩
  have low : Writes "de00".toList 0xDE00 := ⟨by decide, [13, 14, 0, 0], by decide, by decide⟩
  have basic : Spells ("é語".toList.flatMap units) "\\U00e9\\U8A9e".toList :=
    .cons accent (.cons ideograph .nil)
  have face : Spells ("é😀".toList.flatMap units) "\\U00e9\\Ud83d\\Ude00".toList :=
    .cons accent (.cons high (.cons low .nil))
  have allBasic : ∀ c ∈ "é語".toList, IsBasic c := by simp [IsBasic]
  refine ⟨basic, (unescape_spelled_iff basic).1.mpr allBasic, face, fun same => ?_⟩
  have faceBasic : IsBasic '😀' := (unescape_spelled_iff face).1.mp same _ (by decide)
  exact absurd faceBasic (by decide)

end ScriptBridge.Diagnostic
