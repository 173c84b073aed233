import ScriptBridge.Number.Power
/-!
Binary floating-point numbers as bit patterns.

A format is given by its precision and the width of its exponent. `Format.decode` splits a pattern
into sign and magnitude, a finite magnitude being `m * 2 ^ q`; `Format.nearest` gives the pattern
of the number nearest to a fraction, the even one of two. Everything is exact arithmetic on natural
numbers, so both formats in use, of 32 and 64 bits, share one definition, and widening a number is
`decode` in one format and `nearest` in the other.
-/
namespace ScriptBridge.Number

/-- A binary interchange format. -/
structure Format where
  /-- Bits of the significand, the hidden one included. -/
  precision : Nat
  /-- Bits of the exponent. -/
  exponentBits : Nat
  deriving DecidableEq, Repr

/-- The format of 32 bits. -/
def single : Format := { precision := 24, exponentBits := 8 }

/-- The format of 64 bits. -/
def double : Format := { precision := 53, exponentBits := 11 }

/-- The size of a number without its sign. -/
inductive Magnitude where
  | finite (m : Nat) (q : Int)
  | infinite
  | undefined
  deriving DecidableEq, Repr

namespace Format

/-- The power of two that one unit of the least numbers stands for. -/
def leastExponent (f : Format) : Int := 3 - (twoTo (f.exponentBits - 1) : Nat) - f.precision

/-- The pattern of positive infinity. -/
def infinityBits (f : Format) : Nat := (twoTo f.exponentBits - 1) * twoTo (f.precision - 1)

/-- The pattern that answers for every number that is undefined. -/
def undefinedBits (f : Format) : Nat := f.infinityBits + twoTo (f.precision - 2)

/-- The pattern of the sign alone. -/
def signBit (f : Format) : Nat := twoTo (f.exponentBits + f.precision - 1)

/-- Whether a pattern carries the sign of negative numbers. -/
def isNegative (f : Format) (bits : Nat) : Bool := f.signBit ≤ bits

/-- The magnitude of a pattern. -/
def decode (f : Format) (bits : Nat) : Magnitude :=
  let hidden := twoTo (f.precision - 1)
  let fraction := bits % hidden
  let exponent := bits % f.signBit / hidden
  if exponent = twoTo f.exponentBits - 1 then
    if fraction = 0 then .infinite else .undefined
  else if exponent = 0 then .finite fraction f.leastExponent
  else .finite (hidden + fraction) (f.leastExponent + (exponent - 1 : Nat))

/-- A quotient rounded to the nearest whole number, a half to the even one. -/
def divideToEven (n d : Nat) : Nat :=
  let whole := n / d
  let twice := 2 * (n % d)
  if twice < d then whole else if d < twice then whole + 1 else whole + whole % 2

/-- The exponent `e` of a positive fraction with `2 ^ e ≤ num / den < 2 ^ (e + 1)`. -/
def binaryExponent (num den : Nat) : Int :=
  let e : Int := Int.ofNat num.log2 - Int.ofNat den.log2
  let reaches := if 0 ≤ e then den * twoTo e.toNat ≤ num else den ≤ num * twoTo (-e).toNat
  if reaches then e else e - 1

/-- The pattern of the number nearest to a fraction, which must be at least zero. -/
def nearest (f : Format) (num den : Nat) : Nat :=
  if num = 0 then 0
  else
    let q := max f.leastExponent (binaryExponent num den - (f.precision - 1 : Nat))
    let m := if 0 ≤ q then divideToEven num (den * twoTo q.toNat)
      else divideToEven (num * twoTo (-q).toNat) den
    min f.infinityBits ((q - f.leastExponent).toNat * twoTo (f.precision - 1) + m)

/-- The pattern of `m * 2 ^ q` in this format. -/
def ofScaled (f : Format) (m : Nat) (q : Int) : Nat :=
  if 0 ≤ q then f.nearest (m * twoTo q.toNat) 1 else f.nearest m (twoTo (-q).toNat)

/-- The pattern of `digits * 10 ^ exponent`, rounded once. A number of so many digits that it must
overflow or vanish is not expanded. -/
def ofDecimal (f : Format) (digits : Nat) (exponent : Int) : Nat :=
  let size := Int.ofNat (Nat.toDigits 10 digits).length + exponent
  if digits = 0 then 0
  else if 400 < size then f.infinityBits
  else if size < -400 then 0
  else if 0 ≤ exponent then f.nearest (digits * tenTo exponent.toNat) 1
  else f.nearest digits (tenTo (-exponent).toNat)

end Format
end ScriptBridge.Number
