import ScriptBridge.Number.Integer
/-!
Decimal integers are read back.

The digits of a number lead the reader from nothing to that number (`readDigits_natDigits`), and it
complains only if the number passes the limit, so every integer of a range is read as it was
written, the least one included (`readInteger_intText`).
-/
namespace ScriptBridge.Number

theorem digit?_digitChar {d : Nat} (h : d < 10) : digit? (Nat.digitChar d) = some d :=
  (by decide : ∀ d, d < 10 → digit? (Nat.digitChar d) = some d) d h

theorem readDigits_append (limit : Nat) (excess : Fault) (a b : List Char) (n : Nat) :
    readDigits limit excess n (a ++ b) =
      (readDigits limit excess n a).bind fun m => readDigits limit excess m b := by
  induction a generalizing n with
  | nil => rfl
  | cons c a ih =>
    rw [List.cons_append, readDigits, readDigits]
    cases digit? c with
    | none => rfl
    | some d =>
      simp only
      split
      · rfl
      · exact ih _

theorem readDigits_digitChar {limit n d : Nat} (hd : d < 10) (h : 10 * n + d ≤ limit)
    (excess : Fault) :
    readDigits limit excess n [Nat.digitChar d] = .ok (10 * n + d) := by
  rw [readDigits, digit?_digitChar hd]
  simp only
  rw [if_neg (by omega), readDigits]

theorem readDigits_natDigits {limit n : Nat} (h : n ≤ limit) (excess : Fault) :
    readDigits limit excess 0 (natDigits n) = .ok n := by
  unfold natDigits
  induction n using Nat.base_induction 10 (by decide) with
  | single n hn =>
    rw [Nat.toDigits_of_lt_base hn, readDigits_digitChar hn (by omega), Nat.mul_zero, Nat.zero_add]
  | digit n d hd hn ih =>
    -- The last digit is read onto the number that the others give.
    rw [← Nat.toDigits_append_toDigits (by decide) hn hd, readDigits_append, ih (by omega),
      Nat.toDigits_of_lt_base hd]
    exact readDigits_digitChar hd h excess

/-! ## The characters of integers -/

/-- Whether a character is one of a decimal integer. -/
def isNumeral (c : Char) : Bool := c.isDigit || c == '-'

theorem natDigits_cons (n : Nat) : ∃ c rest, natDigits n = c :: rest ∧ c.isDigit = true := by
  obtain ⟨c, rest, h⟩ := List.exists_cons_of_ne_nil (Nat.toDigits_ne_nil (n := n) (b := 10))
  refine ⟨c, rest, h, Nat.isDigit_of_mem_toDigits (b := 10) (n := n) (by decide) (by decide) ?_⟩
  rw [h]
  exact List.mem_cons_self

theorem isNumeral_of_mem {n : Int} : ∀ c ∈ intText n, isNumeral c = true := by
  have digits (m : Nat) : ∀ c ∈ natDigits m, isNumeral c = true := by
    intro c hc
    rw [isNumeral, Nat.isDigit_of_mem_toDigits (by decide) (by decide) hc, Bool.true_or]
  unfold intText
  split
  · exact List.forall_mem_cons.mpr ⟨by decide, digits _⟩
  · exact digits _

theorem intText_ne_nil (n : Int) : intText n ≠ [] := by
  unfold intText
  split
  · simp
  · exact Nat.toDigits_ne_nil

/-! ## Reading integers -/

theorem readInteger_negative {c : Char} (greatest : Nat) (rest : List Char) :
    readInteger greatest ('-' :: c :: rest) =
      (readDigits (greatest + 1) .tooSmall 0 (c :: rest)).map fun n => -Int.ofNat n := by
  rw [readInteger]
  simp

theorem readInteger_digit {c : Char} (hc : c.isDigit = true) (greatest : Nat) (rest : List Char) :
    readInteger greatest (c :: rest) =
      (readDigits greatest .tooLarge 0 (c :: rest)).map Int.ofNat := by
  have hp : c ≠ '+' := by
    rintro rfl
    exact absurd hc (by decide)
  have hm : c ≠ '-' := by
    rintro rfl
    exact absurd hc (by decide)
  unfold readInteger
  split <;> simp_all

theorem readInteger_intText {greatest : Nat} {n : Int} (hl : -(greatest + 1 : Int) ≤ n)
    (hg : n ≤ greatest) : readInteger greatest (intText n) = .ok n := by
  obtain ⟨c, rest, hd, hc⟩ := natDigits_cons n.natAbs
  unfold intText
  split
  · next hn =>
    rw [hd, readInteger_negative, ← hd, readDigits_natDigits (by omega)]
    simp only [Except.map, Int.ofNat_eq_natCast]
    congr 1
    omega
  · next hn =>
    rw [hd, readInteger_digit hc, ← hd, readDigits_natDigits (by omega)]
    simp only [Except.map, Int.ofNat_eq_natCast]
    congr 1
    omega

theorem readInt16_intText (n : Int16) : readInt16 (intText n.toInt) = .ok n := by
  have h₁ := n.le_toInt
  have h₂ := n.toInt_lt
  rw [readInt16, readInteger_intText (by omega) (by omega)]
  exact congrArg Except.ok n.ofInt_toInt

theorem readInt32_intText (n : Int32) : readInt32 (intText n.toInt) = .ok n := by
  have h₁ := n.le_toInt
  have h₂ := n.toInt_lt
  rw [readInt32, readInteger_intText (by omega) (by omega)]
  exact congrArg Except.ok n.ofInt_toInt

theorem readInt64_intText (n : Int64) : readInt64 (intText n.toInt) = .ok n := by
  have h₁ := n.le_toInt
  have h₂ := n.toInt_lt
  rw [readInt64, readInteger_intText (by omega) (by omega)]
  exact congrArg Except.ok n.ofInt_toInt

end ScriptBridge.Number
