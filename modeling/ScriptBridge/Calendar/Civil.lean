import ScriptBridge.Number.Integer
/-!
The civil calendar: Gregorian dates in both directions of time, the days and seconds they are from
the start of 1970, and the weekday. A minute may end in a leap second, which is kept as second 59
with a full second of extra nanoseconds.

All times are in coordinated universal time, so a civil time and an instant determine each other.
-/
namespace ScriptBridge

/-- A date and a time of day. -/
structure CivilTime where
  /-- The year; the year before year 1 is year 0. -/
  year : Int
  /-- The month, from 1. -/
  month : Nat
  /-- The day of the month, from 1. -/
  day : Nat
  hour : Nat
  minute : Nat
  second : Nat
  /-- The nanoseconds; a leap second counts them from a thousand million. -/
  nanosecond : Nat := 0
  deriving DecidableEq, Repr, Inhabited

/-- A point in time. -/
structure Instant where
  /-- Seconds since the start of 1970. -/
  seconds : Int
  /-- The nanoseconds; a leap second counts them from a thousand million. -/
  nanoseconds : Nat := 0
  deriving DecidableEq, Repr, Inhabited

namespace Calendar

/-- Whether a year has a leap day. -/
def isLeapYear (year : Int) : Bool := year % 4 == 0 && (year % 100 != 0 || year % 400 == 0)

/-- The number of days of a month. -/
def daysInMonth (year : Int) (month : Nat) : Nat :=
  if month = 2 then (if isLeapYear year then 29 else 28)
  else if month = 4 ∨ month = 6 ∨ month = 9 ∨ month = 11 then 30
  else 31

/-- The years that dates may have. -/
def isYear (year : Int) : Bool := -262143 ≤ year && year ≤ 262142

/-- Whether year, month and day name a day. -/
def isDate (year : Int) (month day : Nat) : Bool :=
  isYear year && 1 ≤ month && month ≤ 12 && 1 ≤ day && day ≤ daysInMonth year month

/-- The day number of a date, counted from the start of 1970. Years are counted from March, so that
the leap day is the last of its year. -/
def dayNumber (year : Int) (month day : Nat) : Int :=
  let year := if month ≤ 2 then year - 1 else year
  let monthFromMarch : Int := if month ≤ 2 then month + 9 else month - 3
  let era := year / 400
  let yearOfEra := year - era * 400
  let dayOfYear := (153 * monthFromMarch + 2) / 5 + day - 1
  let dayOfEra := yearOfEra * 365 + yearOfEra / 4 - yearOfEra / 100 + dayOfYear
  era * 146097 + dayOfEra - 719468

/-- The date of a day number. -/
def dateOfDay (number : Int) : Int × Nat × Nat :=
  let shifted := number + 719468
  let era := shifted / 146097
  let dayOfEra := shifted - era * 146097
  let yearOfEra := (dayOfEra - dayOfEra / 1460 + dayOfEra / 36524 - dayOfEra / 146096) / 365
  let dayOfYear := dayOfEra - (365 * yearOfEra + yearOfEra / 4 - yearOfEra / 100)
  let monthFromMarch := (5 * dayOfYear + 2) / 153
  let day := dayOfYear - (153 * monthFromMarch + 2) / 5 + 1
  let month := if monthFromMarch < 10 then monthFromMarch + 3 else monthFromMarch - 9
  let year := yearOfEra + era * 400
  (if month ≤ 2 then year + 1 else year, month.toNat, day.toNat)

/-- The weekday of a day number, counted from Monday as 0. -/
def weekday (number : Int) : Nat := ((number + 3) % 7).toNat

/-- A number with leading zeros up to a width. -/
def padded (width n : Nat) : String :=
  let digits := Number.natDigits n
  String.ofList (List.replicate (width - digits.length) '0' ++ digits)

/-- A year: four digits, with a sign when it has more or is negative. -/
def renderYear (year : Int) : String :=
  if year < 0 then "-" ++ padded 4 year.natAbs
  else if 9999 < year then "+" ++ padded 4 year.natAbs
  else padded 4 year.natAbs

end Calendar

namespace CivilTime

/-- The instant of a civil time. -/
def toInstant (t : CivilTime) : Instant :=
  { seconds := Calendar.dayNumber t.year t.month t.day * 86400 +
      Int.ofNat (t.hour * 3600 + t.minute * 60 + t.second),
    nanoseconds := t.nanosecond }

/-- The second as it is shown: 60 in a leap second. -/
def shownSecond (t : CivilTime) : Nat := t.second + t.nanosecond / 1000000000

/-- The fraction of a second as diagnostics show it: in groups of three digits, and not at all when
it is zero. -/
def renderFraction (nanos : Nat) : String :=
  if nanos = 0 then ""
  else if nanos % 1000000 = 0 then "." ++ Calendar.padded 3 (nanos / 1000000)
  else if nanos % 1000 = 0 then "." ++ Calendar.padded 6 (nanos / 1000)
  else "." ++ Calendar.padded 9 nanos

/-- The civil time in the form `2024-03-02T15:04:05Z`. -/
def render (t : CivilTime) : String :=
  Calendar.renderYear t.year ++ "-" ++ Calendar.padded 2 t.month ++ "-" ++
    Calendar.padded 2 t.day ++ "T" ++ Calendar.padded 2 t.hour ++ ":" ++
    Calendar.padded 2 t.minute ++ ":" ++ Calendar.padded 2 t.shownSecond ++
    renderFraction (t.nanosecond % 1000000000) ++ "Z"

end CivilTime

/-- The civil time of an instant. -/
def Instant.toCivil (i : Instant) : CivilTime :=
  let (year, month, day) := Calendar.dateOfDay (i.seconds / 86400)
  let seconds := (i.seconds % 86400).toNat
  { year, month, day, hour := seconds / 3600, minute := seconds / 60 % 60, second := seconds % 60,
    nanosecond := i.nanoseconds }

end ScriptBridge
