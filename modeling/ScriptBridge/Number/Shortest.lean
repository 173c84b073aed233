import ScriptBridge.Number.Binary
/-!
The shortest decimal that reads back as a given binary number.

Every number owns the interval of reals that round to it, which includes its ends exactly when its
significand is even. For one digit, two digits and so on, `shortest` looks at the two neighbours of
the number among the decimals of that many digits; the first count with a neighbour inside the
interval wins, and of two such neighbours the nearer one, or the greater if both are equally near.
If any decimal of that many digits lies in the interval, one of those two does, so no shorter
decimal reads back.
-/
namespace ScriptBridge.Number

/-- A decimal `digits * 10 ^ exponent`. -/
structure Decimal where
  /-- The digits as one number. -/
  digits : Nat
  /-- The power of ten they are counted in. -/
  exponent : Int
  deriving DecidableEq, Repr, Inhabited

/-- A positive number with the interval that rounds to it, all counted in one small unit
`unitNum / unitDen`. -/
structure Owned where
  /-- The numerator of the unit. -/
  unitNum : Nat
  /-- The denominator of the unit. -/
  unitDen : Nat
  low : Nat
  value : Nat
  high : Nat
  /-- Whether the ends belong to the interval. -/
  closed : Bool

namespace Owned

/-- The interval of `m * 2 ^ q`; below a power of two the neighbour is half as far. -/
def ofScaled (f : Format) (m : Nat) (q : Int) : Owned :=
  let unit := q - 2
  let narrow := m = twoTo (f.precision - 1) ∧ f.leastExponent < q
  { unitNum := twoTo unit.toNat, unitDen := twoTo (-unit).toNat,
    low := 4 * m - (if narrow then 1 else 2), value := 4 * m, high := 4 * m + 2,
    closed := m % 2 = 0 }

/-- The exponent `e` with `10 ^ e ≤ value < 10 ^ (e + 1)`. -/
def decimalExponent (o : Owned) : Int :=
  let num := o.value * o.unitNum
  let den := o.unitDen
  if den ≤ num then Int.ofNat (Nat.toDigits 10 (num / den)).length - 1
  else
    let count := (Nat.toDigits 10 (den / num)).length
    if den ≤ num * tenTo (count - 1) then 1 - Int.ofNat count else -Int.ofNat count

/-- The decimal that is nearest to the number among those at a power of ten that lie in the
interval; of two equally near ones the greater. -/
def atExponent? (o : Owned) (exponent : Int) : Option Decimal :=
  -- both sides of a comparison are scaled to whole numbers
  let toUnits := o.unitDen * tenTo exponent.toNat
  let toTens := o.unitNum * tenTo (-exponent).toNat
  let below := o.value * toTens / toUnits
  let inside (digits : Nat) : Bool :=
    let x := digits * toUnits
    if o.closed then o.low * toTens ≤ x && x ≤ o.high * toTens
    else o.low * toTens < x && x < o.high * toTens
  let nearerAbove := (below + 1) * toUnits + below * toUnits ≤ 2 * (o.value * toTens)
  if inside below && !(inside (below + 1) && nearerAbove) then
    some { digits := below, exponent }
  else if inside (below + 1) then some { digits := below + 1, exponent }
  else none

end Owned

/-- Moves trailing zeros of the digits into the exponent, looking at so many of them. -/
def Decimal.strip : Nat → Decimal → Decimal
  | 0, d => d
  | fuel + 1, d =>
    if d.digits ≠ 0 ∧ d.digits % 10 = 0 then
      strip fuel { digits := d.digits / 10, exponent := d.exponent + 1 }
    else d

/-- The shortest decimal that reads back as the positive number `m * 2 ^ q`. -/
def shortest (f : Format) (m : Nat) (q : Int) : Decimal :=
  let o := Owned.ofScaled f m q
  let top := o.decimalExponent
  -- seventeen digits always suffice for the formats in use
  let found := (List.range 17).findSome? fun n => o.atExponent? (top - Int.ofNat n)
  (found.getD { digits := 0, exponent := 0 }).strip 20

end ScriptBridge.Number
