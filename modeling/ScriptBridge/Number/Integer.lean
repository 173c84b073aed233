/-!
Decimal integers of a fixed range.

`readInteger?` reads an optional sign and decimal digits from left to right. Whichever comes first
decides the fault: a character that is no digit, or the digit with which the number leaves the
range. A sign alone is a bad digit, and nothing at all is a fault of its own.
-/
namespace ScriptBridge.Number

/-- Why a text is not a number of the wanted kind. -/
inductive Fault where
  | noDigits
  | badDigit
  | tooLarge
  | tooSmall
  | noReal
  | badReal
  deriving DecidableEq, Repr

def Fault.message : Fault → String
  | .noDigits => "cannot parse integer from empty string"
  | .badDigit => "invalid digit found in string"
  | .tooLarge => "number too large to fit in target type"
  | .tooSmall => "number too small to fit in target type"
  | .noReal => "cannot parse float from empty string"
  | .badReal => "invalid float literal"

/-- The value of a decimal digit. -/
def digit? (c : Char) : Option Nat :=
  if '0' ≤ c ∧ c ≤ '9' then some (c.toNat - '0'.toNat) else none

/-- Reads digits onto a magnitude that may not pass a limit. -/
def readDigits (limit : Nat) (excess : Fault) : Nat → List Char → Except Fault Nat
  | n, [] => .ok n
  | n, c :: rest =>
    match digit? c with
    | none => .error .badDigit
    | some d =>
      if limit < 10 * n + d then .error excess else readDigits limit excess (10 * n + d) rest

/-- Reads an integer between `-(greatest + 1)` and `greatest`. -/
def readInteger (greatest : Nat) : List Char → Except Fault Int
  | [] => .error .noDigits
  | ['+'] => .error .badDigit
  | ['-'] => .error .badDigit
  | '+' :: digits => (readDigits greatest .tooLarge 0 digits).map Int.ofNat
  | '-' :: digits => (readDigits (greatest + 1) .tooSmall 0 digits).map fun n => -Int.ofNat n
  | digits => (readDigits greatest .tooLarge 0 digits).map Int.ofNat

/-- Reads a signed integer of 16 bits. -/
def readInt16 (s : List Char) : Except Fault Int16 := (readInteger 32767 s).map Int16.ofInt

/-- Reads a signed integer of 32 bits. -/
def readInt32 (s : List Char) : Except Fault Int32 := (readInteger 2147483647 s).map Int32.ofInt

/-- Reads a signed integer of 64 bits. -/
def readInt64 (s : List Char) : Except Fault Int64 :=
  (readInteger 9223372036854775807 s).map Int64.ofInt

/-- The decimal digits of a natural number. -/
def natDigits (n : Nat) : List Char := Nat.toDigits 10 n

/-- The decimal text of an integer. -/
def intText (n : Int) : List Char :=
  if n < 0 then '-' :: natDigits n.natAbs else natDigits n.natAbs

/-- The decimal text of an integer, as a string. -/
def showInt (n : Int) : String := String.ofList (intText n)

end ScriptBridge.Number
