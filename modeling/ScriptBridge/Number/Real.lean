import ScriptBridge.Number.Integer
import ScriptBridge.Number.Shortest
/-!
Real numbers of the script language, in single and double precision.

A real is kept as its bit pattern. It is written with the fewest digits that read back, always with
a fraction, and in scientific notation from `1e16` on and below `1e-4`. It is read from an optional
sign followed by a decimal number with optional fraction and exponent, or by `inf`, `infinity` or
`nan` in any letter case, and rounded once, directly to its own precision.
-/
namespace ScriptBridge

/-- A real of single precision. -/
structure Single where
  bits : UInt32
  deriving DecidableEq, Repr, Inhabited

/-- A real of double precision. -/
structure Double where
  bits : UInt64
  deriving DecidableEq, Repr, Inhabited

namespace Number

/-! ## Writing -/

/-- The exponents of ten whose numbers are written without one. -/
def isPositional (exponent : Int) : Bool := -4 ≤ exponent && exponent < 16

/-- A positive decimal as text. -/
def Decimal.render (d : Decimal) : List Char :=
  let digits := natDigits d.digits
  let exponent := d.exponent + Int.ofNat digits.length - 1
  if isPositional exponent then
    if exponent < 0 then
      "0.".toList ++ List.replicate (-exponent - 1).toNat '0' ++ digits
    else
      let whole := exponent.toNat + 1
      let fraction := digits.drop whole
      digits.take whole ++ List.replicate (whole - digits.length) '0' ++ ['.'] ++
        (if fraction.isEmpty then ['0'] else fraction)
  else
    let fraction := digits.drop 1
    digits.take 1 ++ (if fraction.isEmpty then [] else '.' :: fraction) ++ ['e'] ++ intText exponent

/-- A bit pattern as text. -/
def renderBits (f : Format) (bits : Nat) : List Char :=
  let sign := if f.isNegative bits then ['-'] else []
  match f.decode bits with
  | .undefined => "NaN".toList
  | .infinite => sign ++ "inf".toList
  | .finite m q => sign ++ (if m = 0 then "0.0".toList else (shortest f m q).render)

/-! ## Reading -/

/-- The leading digits of a text and what follows them. -/
def spanDigits (s : List Char) : List Char × List Char :=
  (s.takeWhile (digit? · |>.isSome), s.dropWhile (digit? · |>.isSome))

/-- The number that digits spell. -/
def digitsValue (digits : List Char) : Nat :=
  digits.foldl (fun n c => 10 * n + (digit? c).getD 0) 0

/-- The exponent at the end of a decimal number; nothing stands for zero. -/
def exponent? : List Char → Option Int
  | [] => some 0
  | c :: rest =>
    if c = 'e' ∨ c = 'E' then
      let (negative, digits) := match rest with
        | '-' :: digits => (true, digits)
        | '+' :: digits => (false, digits)
        | digits => (false, digits)
      let size := Int.ofNat (digitsValue digits)
      if digits.isEmpty ∨ !digits.all (digit? · |>.isSome) then none
      else some (if negative then -size else size)
    else none

/-- A decimal number without a sign. -/
def decimal? (s : List Char) : Option Decimal :=
  let (whole, rest) := spanDigits s
  let (fraction, rest) := match rest with
    | '.' :: rest => spanDigits rest
    | rest => ([], rest)
  if whole.isEmpty ∧ fraction.isEmpty then none
  else (exponent? rest).map fun e =>
    { digits := digitsValue (whole ++ fraction), exponent := e - Int.ofNat fraction.length }

/-- The pattern of a real without a sign. -/
def magnitudeBits? (f : Format) (s : List Char) : Option Nat :=
  let word := s.map Char.toLower
  if word = "inf".toList ∨ word = "infinity".toList then some f.infinityBits
  else if word = "nan".toList then some f.undefinedBits
  else (decimal? s).map fun d => f.ofDecimal d.digits d.exponent

/-- Reads a real as a bit pattern. -/
def readBits (f : Format) : List Char → Except Fault Nat
  | [] => .error .noReal
  | '-' :: rest => match magnitudeBits? f rest with
    | some bits => .ok (f.signBit + bits)
    | none => .error .badReal
  | '+' :: rest => match magnitudeBits? f rest with
    | some bits => .ok bits
    | none => .error .badReal
  | rest => match magnitudeBits? f rest with
    | some bits => .ok bits
    | none => .error .badReal

end Number

namespace Single

/-- Reads a real of single precision. -/
def read (s : List Char) : Except Number.Fault Single :=
  (Number.readBits Number.single s).map fun bits => { bits := .ofNat bits }

def render (r : Single) : String := String.ofList (Number.renderBits Number.single r.bits.toNat)

/-- The same number in double precision. -/
def widen (r : Single) : Double :=
  let sign := if Number.single.isNegative r.bits.toNat then Number.double.signBit else 0
  match Number.single.decode r.bits.toNat with
  | .undefined => { bits := .ofNat Number.double.undefinedBits }
  | .infinite => { bits := .ofNat (sign + Number.double.infinityBits) }
  | .finite m q => { bits := .ofNat (sign + Number.double.ofScaled m q) }

/-- Whether the pattern stands for no number. -/
def isUndefined (r : Single) : Bool := Number.single.decode r.bits.toNat = .undefined

end Single

namespace Double

/-- Reads a real of double precision. -/
def read (s : List Char) : Except Number.Fault Double :=
  (Number.readBits Number.double s).map fun bits => { bits := .ofNat bits }

def render (r : Double) : String := String.ofList (Number.renderBits Number.double r.bits.toNat)

/-- Whether the pattern stands for no number. -/
def isUndefined (r : Double) : Bool := Number.double.decode r.bits.toNat = .undefined

end Double
end ScriptBridge
