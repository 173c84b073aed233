/-!
White space, in the sense of the Unicode property `White_Space`, and the three ways of cutting it
off a text. Everything the interpreter prints is trimmed by this rule before it is read, so a
no-break space and an ideographic space count, while a zero-width space and a byte order mark do
not.

Texts are scanned as lists of characters; `trimmed` is the same operation on strings.
-/
namespace ScriptBridge.Text

/-- Whether a character has the Unicode property `White_Space`. -/
def isBlank (c : Char) : Bool :=
  let n := c.toNat
  (0x09 ≤ n && n ≤ 0x0D) || n == 0x20 || n == 0x85 || n == 0xA0 || n == 0x1680 ||
    (0x2000 ≤ n && n ≤ 0x200A) || n == 0x2028 || n == 0x2029 || n == 0x202F || n == 0x205F ||
    n == 0x3000

/-- The text without the white space it starts with. -/
def trimStart (s : List Char) : List Char := s.dropWhile isBlank

/-- The text without the white space it ends with. -/
def trimEnd (s : List Char) : List Char := (trimStart s.reverse).reverse

/-- The text without white space at either end. -/
def trim (s : List Char) : List Char := trimEnd (trimStart s)

/-- `trim` on strings. -/
def trimmed (s : String) : String := String.ofList (trim s.toList)

/-! ## Every blank of the core library is a blank here -/

theorem isBlank_of_isWhitespace {c : Char} (h : c.isWhitespace = true) : isBlank c = true := by
  simp only [Char.isWhitespace, Bool.or_eq_true, decide_eq_true_eq] at h
  rcases h with ((h | h) | h) | h <;> subst h <;> decide

example : isBlank '\u00a0' = true ∧ isBlank '\u3000' = true ∧ isBlank '\u200b' = false := by decide

end ScriptBridge.Text
