import ScriptBridge.Calendar.Civil
import ScriptBridge.Text.Blank
/-!
Reading dates by a layout.

A layout is a list of items: numeric fields, names, the half of the day, fixed text and blanks.
Items are read one after the other, and the text must be used up at the end. A numeric field may be
preceded by white space, a blank matches any white space or none, and names match in any letter
case. A year may carry a sign and then has any number of digits; a number without a sign has at
most as many digits as its field.

What has been read is then put together: the day must exist, and a weekday that was read must be
the day's. Second 60 is the leap second of its minute, and a missing second is zero.
-/
namespace ScriptBridge.Calendar

/-- The numeric fields of a layout. -/
inductive Field where
  | year
  | yearOfCentury
  | month
  | day
  | hour
  | hourOfHalf
  | minute
  | second
  deriving DecidableEq, Repr

/-- One item of a layout. -/
inductive Item where
  | number (field : Field)
  | monthName (allowLong : Bool)
  | weekdayName
  | halfOfDay
  | blank
  | fixed (text : List Char)
  deriving DecidableEq, Repr

abbrev Layout := List Item

/-- What has been read of a date. -/
structure Parts where
  year : Option Int := none
  /-- The month, from 1. -/
  month : Option Nat := none
  day : Option Nat := none
  /-- The weekday, from Monday as 0. -/
  weekday : Option Nat := none
  /-- Whether the time is in the second half of the day. -/
  afternoon : Option Bool := none
  /-- The hour within its half of the day. -/
  hourOfHalf : Option Nat := none
  minute : Option Nat := none
  /-- The second, which may be 60. -/
  second : Option Nat := none
  deriving DecidableEq, Repr

/-! ## Reading one item -/

/-- The months by their first three letters and what may follow those. -/
def monthNames : List (List Char × List Char) :=
  [("jan".toList, "uary".toList), ("feb".toList, "ruary".toList), ("mar".toList, "ch".toList),
    ("apr".toList, "il".toList), ("may".toList, []), ("jun".toList, "e".toList),
    ("jul".toList, "y".toList), ("aug".toList, "ust".toList), ("sep".toList, "tember".toList),
    ("oct".toList, "ober".toList), ("nov".toList, "ember".toList), ("dec".toList, "ember".toList)]

/-- The weekdays by their first three letters and what may follow those. -/
def weekdayNames : List (List Char × List Char) :=
  [("mon".toList, "day".toList), ("tue".toList, "sday".toList), ("wed".toList, "nesday".toList),
    ("thu".toList, "rsday".toList), ("fri".toList, "day".toList), ("sat".toList, "urday".toList),
    ("sun".toList, "day".toList)]

/-- The text after a word that it starts with in any letter case. -/
def afterWord? (word s : List Char) : Option (List Char) :=
  if (s.take word.length).map Char.toLower = word then some (s.drop word.length) else none

/-- The index of the name that a text starts with, and the text after it. -/
def readName (allowLong : Bool) (names : List (List Char × List Char)) (s : List Char) :
    Option (Nat × List Char) :=
  names.zipIdx.findSome? fun ((start, ending), index) =>
    (afterWord? start s).map fun rest =>
      (index, if allowLong then (afterWord? ending rest).getD rest else rest)

/-- A number of at least one digit and at most so many. -/
def readNumber (width : Nat) (s : List Char) : Option (Nat × List Char) :=
  let digits := (s.take width).takeWhile fun c => (Number.digit? c).isSome
  if digits.isEmpty then none
  else some (digits.foldl (fun n c => 10 * n + (Number.digit? c).getD 0) 0, s.drop digits.length)

/-- A year: a sign and any number of digits, or at most four digits. -/
def readYear (s : List Char) : Option (Int × List Char) :=
  match s with
  | '-' :: rest => (readNumber rest.length rest).map fun (n, rest) => (-Int.ofNat n, rest)
  | '+' :: rest => (readNumber rest.length rest).map fun (n, rest) => (Int.ofNat n, rest)
  | _ => (readNumber 4 s).map fun (n, rest) => (Int.ofNat n, rest)

/-- Two digits at most that lie in a range. -/
def readInRange (least greatest : Nat) (s : List Char) : Option (Nat × List Char) :=
  (readNumber 2 s).bind fun (n, rest) => if least ≤ n ∧ n ≤ greatest then some (n, rest) else none

/-- Reads a numeric field. -/
def readField (p : Parts) (s : List Char) : Field → Option (Parts × List Char)
  | .year => (readYear s).map fun (n, rest) => ({ p with year := some n }, rest)
  | .yearOfCentury => (readInRange 0 99 s).map fun (n, rest) =>
    ({ p with year := some (if n < 70 then 2000 + Int.ofNat n else 1900 + Int.ofNat n) }, rest)
  | .month => (readInRange 1 12 s).map fun (n, rest) => ({ p with month := some n }, rest)
  | .day => (readInRange 1 31 s).map fun (n, rest) => ({ p with day := some n }, rest)
  | .hour => (readInRange 0 23 s).map fun (n, rest) =>
    ({ p with afternoon := some (12 ≤ n), hourOfHalf := some (n % 12) }, rest)
  | .hourOfHalf => (readInRange 1 12 s).map fun (n, rest) =>
    ({ p with hourOfHalf := some (n % 12) }, rest)
  | .minute => (readInRange 0 59 s).map fun (n, rest) => ({ p with minute := some n }, rest)
  | .second => (readInRange 0 60 s).map fun (n, rest) => ({ p with second := some n }, rest)

/-- Reads one item. -/
def readItem (p : Parts) (s : List Char) : Item → Option (Parts × List Char)
  | .number field => readField p (Text.trimStart s) field
  | .monthName allowLong => (readName allowLong monthNames s).map fun (n, rest) =>
    ({ p with month := some (n + 1) }, rest)
  | .weekdayName => (readName true weekdayNames s).map fun (n, rest) =>
    ({ p with weekday := some n }, rest)
  | .halfOfDay =>
    match afterWord? ['a', 'm'] s with
    | some rest => some ({ p with afternoon := some false }, rest)
    | none => (afterWord? ['p', 'm'] s).map fun rest => ({ p with afternoon := some true }, rest)
  | .blank => some (p, Text.trimStart s)
  | .fixed text => (text.isPrefixOf? s).map fun rest => (p, rest)

/-! ## Putting the parts together -/

/-- The date and time that the parts name, if they name one. -/
def Parts.toCivil? (p : Parts) : Option CivilTime := do
  let year ← p.year
  let month ← p.month
  let day ← p.day
  let afternoon ← p.afternoon
  let hourOfHalf ← p.hourOfHalf
  let minute ← p.minute
  let second := p.second.getD 0
  if !isDate year month day then none
  else if p.weekday.any (· != Calendar.weekday (dayNumber year month day)) then none
  else
    some { year, month, day, hour := hourOfHalf + (if afternoon then 12 else 0), minute,
           second := min second 59, nanosecond := if second = 60 then 1000000000 else 0 }

/-- Reads items one after the other. -/
def readItems (p : Parts) (s : List Char) : Layout → Option (Parts × List Char)
  | [] => some (p, s)
  | item :: layout => (readItem p s item).bind fun (p, rest) => readItems p rest layout

/-- The date that a whole text names under a layout. -/
def Layout.read (layout : Layout) (s : List Char) : Option CivilTime :=
  match readItems {} s layout with
  | some (p, []) => p.toCivil?
  | _ => none

end ScriptBridge.Calendar
