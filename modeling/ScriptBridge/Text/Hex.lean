/-!
Hexadecimal digits and bytes written as pairs of them.
-/
namespace ScriptBridge.Hex

/-- The value of a hexadecimal digit in either case. -/
def digit? (c : Char) : Option Nat :=
  if '0' ≤ c ∧ c ≤ '9' then some (c.toNat - '0'.toNat)
  else if 'a' ≤ c ∧ c ≤ 'f' then some (c.toNat - 'a'.toNat + 10)
  else if 'A' ≤ c ∧ c ≤ 'F' then some (c.toNat - 'A'.toNat + 10)
  else none

/-- Whether a character is a hexadecimal digit. -/
def isDigit (c : Char) : Bool := (digit? c).isSome

/-- The lower-case digit of a value below sixteen. -/
def lowerDigit (n : Nat) : Char :=
  Char.ofNat (if n < 10 then '0'.toNat + n else 'a'.toNat + (n - 10))

/-- The upper-case digit of a value below sixteen. -/
def upperDigit (n : Nat) : Char :=
  Char.ofNat (if n < 10 then '0'.toNat + n else 'A'.toNat + (n - 10))

/-- Bytes as pairs of lower-case digits. -/
def lower (bytes : List UInt8) : List Char :=
  bytes.flatMap fun b => [lowerDigit (b.toNat / 16), lowerDigit (b.toNat % 16)]

/-- Bytes as pairs of upper-case digits. -/
def upper (bytes : List UInt8) : List Char :=
  bytes.flatMap fun b => [upperDigit (b.toNat / 16), upperDigit (b.toNat % 16)]

/-- The byte of two characters; a plus sign may stand for the first digit. -/
def pair? (high low : Char) : Option UInt8 :=
  if high = '+' then (digit? low).map .ofNat
  else (digit? high).bind fun h => (digit? low).map fun l => .ofNat (16 * h + l)

/-- Bytes written as pairs, or nothing if a pair is incomplete or not a byte. -/
def bytes? : List Char → Option (List UInt8)
  | [] => some []
  | [_] => none
  | high :: low :: rest => (pair? high low).bind fun b => (bytes? rest).map (b :: ·)

/-- The number written by digits, most significant first. -/
def number? (digits : List Char) : Option Nat :=
  digits.foldlM (fun n c => (digit? c).map (16 * n + ·)) 0

end ScriptBridge.Hex
