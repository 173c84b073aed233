import Mathlib.Data.List.Basic
import Mathlib.Tactic.IntervalCases
import ScriptBridge.Text.Hex
import ScriptBridge.Text.Search
import ScriptBridge.Text.Utf8
/-!
Bytes written as digits, and texts written as bytes, are read back.

`Hex.bytes?` inverts both spellings of a byte sequence, by a statement about any spelling that
`Hex.digit?` reads. `Utf8.decode?` inverts `Utf8.encode`: the scan of a character's bytes yields
that character and goes on with what follows (`scan_encodeChar`). The bytes themselves are those
that the core library has for the character (`encodeChar_eq`). A text is cut after some bytes where
its first characters take just these (`firstBytes?_eq_some_iff`).
-/
namespace ScriptBridge

/-! ## Pairs of digits -/

namespace Hex

/-- The byte of two digits in any spelling that is read back; none of them is a plus sign. -/
theorem pair?_of_digits {digit : Nat → Char} (hd : ∀ n, n < 16 → digit? (digit n) = some n)
    (b : UInt8) : pair? (digit (b.toNat / 16)) (digit (b.toNat % 16)) = some b := by
  have hb : b.toNat < 256 := b.toNat_lt
  have hhigh := hd (b.toNat / 16) (by omega)
  have hlow := hd (b.toNat % 16) (by omega)
  have hplus : digit (b.toNat / 16) ≠ '+' := by
    intro h
    rw [h, show digit? '+' = none from by decide] at hhigh
    exact absurd hhigh (by simp)
  unfold pair?
  rw [if_neg hplus, hhigh, hlow]
  have hsum : 16 * (b.toNat / 16) + b.toNat % 16 = b.toNat := by omega
  simp only [Option.bind_some, Option.map_some, hsum, UInt8.ofNat_toNat]

theorem bytes?_of_digits {digit : Nat → Char} (hd : ∀ n, n < 16 → digit? (digit n) = some n)
    (bs : List UInt8) :
    bytes? (bs.flatMap fun b => [digit (b.toNat / 16), digit (b.toNat % 16)]) = some bs := by
  induction bs with
  | nil => rfl
  | cons b bs ih =>
    rw [List.flatMap_cons, List.cons_append, List.cons_append, List.nil_append, bytes?,
      pair?_of_digits hd, ih]
    rfl

theorem bytes?_lower (bs : List UInt8) : bytes? (lower bs) = some bs :=
  bytes?_of_digits (by decide) bs

theorem bytes?_upper (bs : List UInt8) : bytes? (upper bs) = some bs :=
  bytes?_of_digits (by decide) bs

theorem forall_mem_digits {digit : Nat → Char} {P : Char → Prop} (hP : ∀ n, n < 16 → P (digit n))
    (bs : List UInt8) :
    ∀ c ∈ bs.flatMap fun b => [digit (b.toNat / 16), digit (b.toNat % 16)], P c := by
  intro c hc
  obtain ⟨b, -, hc⟩ := List.mem_flatMap.mp hc
  have hb : b.toNat < 256 := b.toNat_lt
  simp only [List.mem_cons, List.not_mem_nil, or_false] at hc
  rcases hc with rfl | rfl
  · exact hP _ (by omega)
  · exact hP _ (by omega)

theorem forall_mem_lower {P : Char → Prop} (hP : ∀ n, n < 16 → P (lowerDigit n))
    (bs : List UInt8) : ∀ c ∈ lower bs, P c := forall_mem_digits hP bs

theorem forall_mem_upper {P : Char → Prop} (hP : ∀ n, n < 16 → P (upperDigit n))
    (bs : List UInt8) : ∀ c ∈ upper bs, P c := forall_mem_digits hP bs

end Hex

/-! ## Characters as bytes -/

namespace Utf8

theorem char_range (c : Char) : c.toNat < 0xD800 ∨ (0xDFFF < c.toNat ∧ c.toNat < 0x110000) :=
  c.valid

theorem toNat_ofNat_of_lt {n : Nat} (h : n < 256) : (UInt8.ofNat n).toNat = n :=
  UInt8.toNat_ofNat_of_lt' h

theorem scanWithin_last {u : Unfinished} {n : Nat} (rest : List UInt8) (howed : u.owed ≤ 1)
    (hlow : u.low ≤ n) (hhigh : n ≤ u.high) (hn : n < 256) :
    scanWithin u (.ofNat n :: rest) =
      some (Char.ofNat (u.value * 0x40 + (n - 0x80))) :: scan rest := by
  simp only [scanWithin, toNat_ofNat_of_lt hn]
  rw [if_pos ⟨hlow, hhigh⟩, if_pos howed]

theorem scanWithin_more {u : Unfinished} {n : Nat} (rest : List UInt8) (howed : ¬ u.owed ≤ 1)
    (hlow : u.low ≤ n) (hhigh : n ≤ u.high) (hn : n < 256) :
    scanWithin u (.ofNat n :: rest) =
      scanWithin { value := u.value * 0x40 + (n - 0x80), owed := u.owed - 1 } rest := by
  simp only [scanWithin, toNat_ofNat_of_lt hn]
  rw [if_pos ⟨hlow, hhigh⟩, if_neg howed]

theorem scan_opens {b : UInt8} {u : Unfinished} (h : lead b = .opens u) (rest : List UInt8) :
    scan (b :: rest) = scanWithin u rest := by
  simp only [scan, h]

theorem lead_two {n : Nat} (h₁ : 2 ≤ n) (h₂ : n < 0x20) :
    lead (.ofNat (0xC0 + n)) = .opens { value := n, owed := 1 } := by
  unfold lead
  simp only [toNat_ofNat_of_lt (show 0xC0 + n < 256 by omega)]
  rw [if_neg (by omega), if_neg (by omega), if_pos (by omega), Nat.add_sub_cancel_left]

/-- The first byte of a character of three bytes leaves out overlong forms and surrogates. -/
theorem lead_three {n : Nat} (h : n < 0x10) :
    lead (.ofNat (0xE0 + n)) = .opens { value := n, owed := 2, low := if n = 0 then 0xA0 else 0x80,
                                        high := if n = 0xD then 0x9F else 0xBF } := by
  interval_cases n <;> rfl

/-- The first byte of a character of four bytes leaves out overlong forms and what is too large. -/
theorem lead_four {n : Nat} (h : n < 5) :
    lead (.ofNat (0xF0 + n)) = .opens { value := n, owed := 3, low := if n = 0 then 0x90 else 0x80,
                                        high := if n = 4 then 0x8F else 0xBF } := by
  interval_cases n <;> rfl

theorem scan_encodeChar (c : Char) (rest : List UInt8) :
    scan (encodeChar c ++ rest) = some c :: scan rest := by
  have hc := char_range c
  have value {n : Nat} (h : n = c.toNat) : Char.ofNat n = c := by rw [h, Char.ofNat_toNat]
  unfold encodeChar
  by_cases h₁ : c.toNat < 0x80
  · have hl : lead (.ofNat c.toNat) = .whole c := by
      unfold lead
      simp only [toNat_ofNat_of_lt (show c.toNat < 256 by omega)]
      rw [if_pos h₁, Char.ofNat_toNat]
    simp only [if_pos h₁, List.cons_append, List.nil_append, scan, hl]
  by_cases h₂ : c.toNat < 0x800
  · simp only [if_neg h₁, if_pos h₂, List.cons_append, List.nil_append]
    rw [scan_opens (lead_two (by omega) (by omega)),
      scanWithin_last _ (Nat.le_refl 1) (by simp) (by simp only; omega) (by omega),
      value (by simp only; omega)]
  by_cases h₃ : c.toNat < 0x10000
  · simp only [if_neg h₁, if_neg h₂, if_pos h₃, List.cons_append, List.nil_append]
    rw [scan_opens (lead_three (by omega)),
      scanWithin_more _ (by simp) (by simp only; split <;> omega) (by simp only; split <;> omega)
        (by omega),
      scanWithin_last _ (by simp) (by simp) (by simp only; omega) (by omega),
      value (by simp only; omega)]
  · simp only [if_neg h₁, if_neg h₂, if_neg h₃, List.cons_append, List.nil_append]
    rw [scan_opens (lead_four (by omega)),
      scanWithin_more _ (by simp) (by simp only; split <;> omega) (by simp only; split <;> omega)
        (by omega),
      scanWithin_more _ (by simp) (by simp) (by simp only; omega) (by omega),
      scanWithin_last _ (by simp) (by simp) (by simp only; omega) (by omega),
      value (by simp only; omega)]

theorem scan_encode (s : List Char) : scan (encode s) = s.map some := by
  induction s with
  | nil => rfl
  | cons c s ih =>
    have h := scan_encodeChar c (encode s)
    rw [ih] at h
    exact h

/-- The bytes of a text spell that text. -/
theorem decode?_encode (s : List Char) : decode? (encode s) = some s := by
  unfold decode?
  rw [scan_encode, List.mapM_map]
  exact List.mapM_pure.trans (by rw [List.map_id']; rfl)

/-- The bytes of a character are those of the core library, which masks what a character of that
length cannot hold. -/
theorem encodeChar_eq (c : Char) : encodeChar c = String.utf8EncodeChar c := by
  have range := char_range c
  have number : c.val.toNat = c.toNat := rfl
  unfold encodeChar String.utf8EncodeChar
  simp only [number]
  by_cases h₁ : c.toNat < 0x80
  · rw [if_pos h₁, if_pos (by omega)]
  by_cases h₂ : c.toNat < 0x800
  · rw [if_neg h₁, if_pos h₂, if_neg (by omega), if_pos (by omega),
      Nat.mod_eq_of_lt (show c.toNat / 64 < 32 by omega)]
    simp only [Nat.add_comm]
  by_cases h₃ : c.toNat < 0x10000
  · rw [if_neg h₁, if_neg h₂, if_pos h₃, if_neg (by omega), if_neg (by omega), if_pos (by omega),
      Nat.mod_eq_of_lt (show c.toNat / 4096 < 16 by omega)]
    simp only [Nat.add_comm]
  · rw [if_neg h₁, if_neg h₂, if_neg h₃, if_neg (by omega), if_neg (by omega), if_neg (by omega),
      Nat.mod_eq_of_lt (show c.toNat / 262144 < 8 by omega)]
    simp only [Nat.add_comm]

end Utf8

/-! ## Texts cut after some bytes -/

namespace Text

theorem firstBytes?_append (first rest : List Char) :
    firstBytes? (first.map Char.utf8Size).sum (first ++ rest) = some (first, rest) := by
  induction first with
  | nil => rw [List.map_nil, List.sum_nil, firstBytes?, List.nil_append]
  | cons c first ih =>
    have size := c.utf8Size_pos
    rw [List.map_cons, List.sum_cons, List.cons_append, firstBytes?,
      if_pos (Nat.le_add_right _ _), Nat.add_sub_cancel_left, ih]
    · rfl
    · omega

theorem firstBytes?_eq_some_iff {n : Nat} {text first rest : List Char} :
    firstBytes? n text = some (first, rest) ↔
      text = first ++ rest ∧ (first.map Char.utf8Size).sum = n := by
  constructor
  · intro h
    induction text generalizing n first with
    | nil =>
      cases n with
      | zero => cases h; exact ⟨rfl, rfl⟩
      | succ n => cases h
    | cons c text ih =>
      cases n with
      | zero => cases h; exact ⟨rfl, rfl⟩
      | succ n =>
        rw [firstBytes?] at h
        · split at h
          · next fits =>
            obtain ⟨⟨before, after⟩, found, e⟩ := Option.map_eq_some_iff.mp h
            cases e
            obtain ⟨rfl, bytes⟩ := ih found
            refine ⟨rfl, ?_⟩
            rw [List.map_cons, List.sum_cons, bytes]
            omega
          · cases h
        · simp
  · rintro ⟨rfl, rfl⟩
    exact firstBytes?_append first rest

end Text
end ScriptBridge
