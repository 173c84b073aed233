import ScriptBridge.Calendar.Layout
import ScriptBridge.Text.Alphabetic
import ScriptBridge.Text.Casing
import ScriptBridge.Text.Search
/-!
Dates as the interpreter prints them in the user's locale, such as
`Saturday, March 2, 2024 at 3:04:05 PM`.

The text is first made universal: the longest month name that occurs in it becomes a number, the
markers of the two halves of the day are taken out and put at the end as `AM` and `PM`, letters and
separators collapse into single spaces, and the separators of the time become dots. What is left is
read by a few layouts, which differ in the order of day, month and year. The names depend on the
language and the order on language and country, so the two need not agree.
-/
namespace ScriptBridge.Calendar

open Text

/-- What dates are written with in one language. -/
structure Symbols where
  months : List String
  shortMonths : List String
  /-- The marker of the first half of the day. -/
  forenoon : String
  /-- The marker of the second half of the day. -/
  afternoon : String
  deriving Repr

def english : Symbols where
  months := ["January", "February", "March", "April", "May", "June", "July", "August", "September",
    "October", "November", "December"]
  shortMonths := ["Jan", "Feb", "Mar", "Apr", "May", "Jun", "Jul", "Aug", "Sep", "Oct", "Nov",
    "Dec"]
  forenoon := "AM"
  afternoon := "PM"

def german : Symbols where
  months := ["Januar", "Februar", "März", "April", "Mai", "Juni", "Juli", "August", "September",
    "Oktober", "November", "Dezember"]
  shortMonths := ["Jan.", "Feb.", "März", "Apr.", "Mai", "Juni", "Juli", "Aug.", "Sept.", "Okt.",
    "Nov.", "Dez."]
  forenoon := "vorm."
  afternoon := "nachm."

def dutch : Symbols where
  months := ["januari", "februari", "maart", "april", "mei", "juni", "juli", "augustus",
    "september", "oktober", "november", "december"]
  shortMonths := ["jan.", "feb.", "mrt.", "apr.", "mei", "jun.", "jul.", "aug.", "sep.", "okt.",
    "nov.", "dec."]
  forenoon := "a.m."
  afternoon := "p.m."

def french : Symbols where
  months := ["janvier", "février", "mars", "avril", "mai", "juin", "juillet", "août", "septembre",
    "octobre", "novembre", "décembre"]
  shortMonths := ["janv.", "févr.", "mars", "avr.", "mai", "juin", "juil.", "août", "sept.", "oct.",
    "nov.", "déc."]
  forenoon := "AM"
  afternoon := "PM"

def japanese : Symbols where
  months := ["1月", "2月", "3月", "4月", "5月", "6月", "7月", "8月", "9月", "10月", "11月", "12月"]
  shortMonths :=
    ["1月", "2月", "3月", "4月", "5月", "6月", "7月", "8月", "9月", "10月", "11月", "12月"]
  forenoon := "午前"
  afternoon := "午後"

/-! ## Layouts -/

/-- Numeric fields with blanks between them. -/
def spaced (fields : List Field) : Layout :=
  fields.flatMap fun field => [.number field, .blank]

/-- A time of day of twelve hours, its fields divided by dots, and then its half. -/
def dottedHalves : Layout :=
  [.number .hourOfHalf, .fixed ['.'], .number .minute, .fixed ['.'], .number .second, .blank,
    .halfOfDay]

/-- A time of day of twenty-four hours, its fields divided by dots. -/
def dottedHours : Layout :=
  [.number .hour, .fixed ['.'], .number .minute, .fixed ['.'], .number .second]

/-- Both times of day after a date. -/
def withTimes (date : Layout) : List Layout := [date ++ dottedHalves, date ++ dottedHours]

def monthFirst : List Layout := withTimes (spaced [.month, .day, .year])

def yearFirst : List Layout := withTimes (spaced [.year, .month, .day])

/-- Day, month, year; a dot may follow the day. -/
def dayFirst : List Layout :=
  withTimes (spaced [.day, .month, .year]) ++
    withTimes ([.number .day, .fixed ['.'], .blank] ++ spaced [.month, .year])

/-! ## Locales -/

/-- How dates are read in one locale. -/
structure Locale where
  /-- The words of the language. -/
  symbols : Symbols
  /-- The layouts that are tried, in this order. -/
  layouts : List Layout

/-- The locale of an identifier such as `de_DE` or `en-US`. -/
def Locale.ofIdentifier (identifier : String) : Locale :=
  let parts := splitOn (fun c => c == '_' || c == '-') identifier.toList
  let language := String.ofList ((parts.headD []).map Char.toLower)
  let country := String.ofList ((parts.tail.headD []).map Char.toUpper)
  let symbols :=
    if language = "de" then german
    else if language = "nl" then dutch
    else if language = "fr" then french
    else if language = "ja" then japanese
    else english
  let layouts :=
    if country = "US" ∨ country = "CA" ∨ identifier.toList.map Char.toLower = ['e', 'n'] then
      monthFirst
    else if language = "ja" then yearFirst
    else dayFirst
  { symbols, layouts }

/-! ## Making a text universal -/

/-- The length of a name in bytes. -/
def byteLength (name : List Char) : Nat := (String.ofList name).utf8ByteSize

/-- The longest of the names that occur in a text, with its place among the names from 1; of
equally long names the last. Length is counted in bytes. -/
def longestName? (text : List Char) (names : List (List Char)) : Option (Nat × List Char) :=
  let present := (names.zipIdx 1).filter fun (name, _) => !name.isEmpty && contains text name
  present.foldl (fun best (name, place) =>
    match best with
    | some (_, other) => if byteLength name < byteLength other then best else some (place, name)
    | none => some (place, name)) none

/-- The text with every occurrence of the longest name replaced by the month's number. -/
def replaceNames? (text : List Char) (names : List (List Char)) : Option (List Char) :=
  (longestName? text names).map fun (place, name) =>
    replaceAll name (Number.natDigits place ++ [' ']) text

/-- The text with its month as a number: full names are looked for before short ones, and names as
they are written before names in lower case. -/
def replaceMonth (symbols : Symbols) (text : List Char) : List Char :=
  let full := symbols.months.map String.toList
  let short := symbols.shortMonths.map String.toList
  let found := (replaceNames? text full).or <| (replaceNames? text short).or <|
    (replaceNames? text (full.map lowerText)).or <| replaceNames? text (short.map lowerText)
  found.getD text

/-- Whether a character only separates the numbers of a date. -/
def isSeparator (c : Char) : Bool := isAlphabetic c || c == ',' || c == '-' || c == ' '

/-- The text with each run of separators as one space; the flag says whether the last character
was one. -/
def collapse : (afterSeparator : Bool) → List Char → List Char
  | _, [] => []
  | afterSeparator, c :: rest =>
    if !isSeparator c then c :: collapse false rest
    else if afterSeparator then collapse true rest
    else ' ' :: collapse true rest

/-- The text without one dot at its end. -/
def dropFinalDot (s : List Char) : List Char := if s.getLast? = some '.' then s.dropLast else s

/-- The text with dots for colons and slashes. -/
def dotted (s : List Char) : List Char := s.map fun c => if c = ':' ∨ c = '/' then '.' else c

/-- A date of some language in the universal form that the layouts read. -/
def universal (symbols : Symbols) (text : List Char) : List Char :=
  let date := replaceMonth symbols text
  let forenoon := symbols.forenoon.toList
  let afternoon := symbols.afternoon.toList
  let hasForenoon := contains date forenoon
  let hasAfternoon := contains date afternoon
  let date := if hasForenoon then replaceAll forenoon [] date else date
  let date := if hasAfternoon then replaceAll afternoon [] date else date
  let collapsed := dotted (dropFinalDot (collapse false date))
  let numbers := trim (replaceAll [' ', '.', ' '] [' '] collapsed)
  trim (numbers ++ (if hasForenoon then " AM".toList else []) ++
    (if hasAfternoon then " PM".toList else []))

/-- The date that a text names in a locale. -/
def Locale.read (locale : Locale) (text : String) : Option CivilTime :=
  let text := universal locale.symbols text.toList
  locale.layouts.findSome? (·.read text)

end ScriptBridge.Calendar
