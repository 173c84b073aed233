import ScriptBridge.Proofs.Calendar.LongForms
/-!
Dates with the day before the month, such as `Samstag, 2. März 2024 um 15:04:05`.

A language that writes the day first is its words and its punctuation, together with the check that
its long forms can be taken apart (`DayFirst`). Every long form of such a language comes to the
numbers of its day, month and year and its time of day (`DayFirst.comesTo`). Of these languages, the
order in which the numbers are read does not depend on the language: two countries have the month
first (`ofIdentifier_layouts`). There a day that could be a month becomes one, unless a dot after it
gives it away (`read_write`).
-/
namespace ScriptBridge.Calendar

open Text

/-! ## Locales -/

/-- The parts of the identifier of a locale. -/
def identifierParts (identifier : String) : List (List Char) :=
  splitOn (fun c => c == '_' || c == '-') identifier.toList

/-- The language of a locale, in lower case. -/
def languageOf (identifier : String) : String :=
  String.ofList (((identifierParts identifier).headD []).map Char.toLower)

/-- The country of a locale, in upper case; empty if it has none. -/
def countryOf (identifier : String) : String :=
  String.ofList (((identifierParts identifier).tail.headD []).map Char.toUpper)

/-- The countries whose dates are read with the month first. -/
def MonthLeads (country : String) : Prop := country = "US" ∨ country = "CA"

instance (country : String) : Decidable (MonthLeads country) :=
  inferInstanceAs (Decidable (country = "US" ∨ country = "CA"))

/-- The words of a language. -/
def symbolsOf (language : String) : Symbols :=
  if language = "de" then german
  else if language = "nl" then dutch
  else if language = "fr" then french
  else if language = "ja" then japanese
  else english

theorem ofIdentifier_symbols (identifier : String) :
    (Locale.ofIdentifier identifier).symbols = symbolsOf (languageOf identifier) := by
  unfold Locale.ofIdentifier symbolsOf
  rfl

theorem languageOf_english {identifier : String}
    (h : identifier.toList.map Char.toLower = ['e', 'n']) : languageOf identifier = "en" := by
  have whole : ∀ c ∈ identifier.toList, (c == '_' || c == '-') = false := by
    intro c hc
    have lower : c.toLower ∈ ['e', 'n'] := h ▸ List.mem_map_of_mem hc
    rw [Bool.or_eq_false_iff, beq_eq_false_iff_ne, beq_eq_false_iff_ne]
    constructor <;> rintro rfl <;> exact absurd lower (by decide)
  rw [languageOf, identifierParts, splitOn_of_none whole, List.headD_cons, h]

/-- In a language other than English and Japanese the country decides which number comes first. -/
theorem ofIdentifier_layouts {identifier : String} (english : languageOf identifier ≠ "en")
    (japanese : languageOf identifier ≠ "ja") :
    (Locale.ofIdentifier identifier).layouts =
      if MonthLeads (countryOf identifier) then monthFirst else dayFirst := by
  have named : ¬ identifier.toList.map Char.toLower = ['e', 'n'] := fun h =>
    english (languageOf_english h)
  have leads : (countryOf identifier = "US" ∨ countryOf identifier = "CA" ∨
      identifier.toList.map Char.toLower = ['e', 'n']) ↔ MonthLeads (countryOf identifier) := by
    rw [MonthLeads, ← or_assoc, or_iff_left named]
  rw [Locale.ofIdentifier]
  exact if_congr leads rfl (if_neg japanese)

/-! ## Languages -/

/-- How a language writes dates, the day before the month. -/
structure DayFirst where
  symbols : Symbols
  names : Names
  /-- What stands right after the weekday. -/
  comma : String
  /-- What stands right after the day. -/
  dot : String
  /-- What may stand between the year and a time of day. -/
  joiners : List String
  /-- The letters of the words between the year and a time of day. -/
  letters : List Char
  fits : Fits symbols names letters
  commas : comma = "" ∨ comma = ","
  dots : dot = "" ∨ dot = "."
  joins : ∀ joiner ∈ joiners, IsBreak joiner.toList ∧ Mixes letters joiner.toList

namespace DayFirst

/-- The long form of a date. -/
def date (language : DayFirst) (weekday : String) (t : CivilTime) : String :=
  weekday ++ language.comma ++ " " ++ padded 1 t.day ++ language.dot ++ " " ++
    language.names.month t.month ++ " " ++ padded 4 t.year.toNat

/-- The long form of a date with its time of day on the clock of twenty-four hours. -/
def write (language : DayFirst) (weekday joiner : String) (t : CivilTime) : String :=
  language.date weekday t ++ joiner ++ clockText t.hour t.minute t.second

section
variable (language : DayFirst)

theorem comma_cases : language.comma.toList = [] ∨ language.comma.toList = [','] :=
  language.commas.imp (fun e => by rw [e]; rfl) fun e => by rw [e]; rfl

theorem dot_cases : language.dot.toList = [] ∨ language.dot.toList = ['.'] :=
  language.dots.imp (fun e => by rw [e]; rfl) fun e => by rw [e]; rfl

/-- What stands between the weekday and the month. -/
def dayText (t : CivilTime) : List Char :=
  language.comma.toList ++ ' ' :: ((padded 1 t.day).toList ++ (language.dot.toList ++ [' ']))

theorem isMiddle_dayText (t : CivilTime) : IsMiddle (language.dayText t) := by
  constructor
  · unfold dayText
    obtain e | e := language.comma_cases <;> rw [e]
    · exact .inl rfl
    · exact .inr rfl
  · simp only [dayText, List.forall_mem_append, List.forall_mem_cons]
    refine ⟨?_, by decide, fun c hc => isMark_of_isDigit (isDigit_of_mem_padded c hc), ?_,
      by decide, nofun⟩
    · obtain e | e := language.comma_cases <;> rw [e] <;> decide
    · obtain e | e := language.dot_cases <;> rw [e] <;> decide

theorem isUnit_day (t : CivilTime) :
    IsUnit ((padded 1 t.day).toList ++ language.dot.toList) := by
  refine (isUnit_padded 1 t.day).append ?_
  obtain e | e := language.dot_cases <;> rw [e] <;> decide

variable {weekday : String} (hw : weekday ∈ language.names.weekdays)
  {joiner : String} (hj : joiner ∈ language.joiners) {t : CivilTime} (h : t.IsOrdinary)
  (hour : Nat) (ending : List Char)

/-- The numbers of a long form. -/
def numbers (t : CivilTime) : List Char :=
  unitsText ((padded 1 t.day).toList ++ language.dot.toList) (Number.natDigits t.month)
    (padded 4 t.year.toNat).toList

include h in
theorem dotted_numbers : dotted (language.numbers t) = language.numbers t := by
  have dot : dotted language.dot.toList = language.dot.toList := by
    obtain e | e := language.dot_cases <;> rw [e] <;> rfl
  rw [numbers, dotted_unitsText, dotted_append, dot, dotted_of_isDigit (writes_day h).isDigit,
    dotted_of_isDigit (writes_month h).isDigit, dotted_of_isDigit (writes_year h).isDigit]

include hw hj h

theorem settled_numbers (gap : IsGap ending) :
    settled (weekday.toList ++ language.dayText t ++ (Number.natDigits t.month ++
      ' ' :: ' ' :: ((padded 4 t.year.toNat).toList ++ (joiner.toList ++
        ((clockText hour t.minute t.second).toList ++ ending))))) =
      language.numbers t ++ dottedClock hour t.minute t.second := by
  have start : IsGap (weekday.toList ++ (language.comma.toList ++ [' '])) := by
    simp only [IsGap, List.forall_mem_append]
    refine ⟨language.fits.gaps weekday hw, ?_, by decide⟩
    obtain e | e := language.comma_cases <;> rw [e] <;> decide
  have settles := settled_units hour t.minute t.second start (language.isUnit_day t) isBreak_space
    (writes_month h).isUnit isBreak_spaces (writes_year h).isUnit (language.joins joiner hj).1 gap
  rw [← numbers, language.dotted_numbers h] at settles
  rw [← settles]
  simp only [dayText, List.append_assoc, List.cons_append, List.nil_append]

theorem comesTo (gap : IsGap ending) (mixes : Mixes language.letters ending) :
    ComesTo language.symbols
      ((language.date weekday t ++ joiner ++ clockText hour t.minute t.second).toList ++ ending)
      (language.numbers t ++ dottedClock hour t.minute t.second) := by
  have written : (language.date weekday t ++ joiner ++ clockText hour t.minute t.second).toList ++
      ending = weekday.toList ++ language.dayText t ++ ((language.names.month t.month).toList ++
        ' ' :: ((padded 4 t.year.toNat).toList ++ (joiner.toList ++
          ((clockText hour t.minute t.second).toList ++ ending)))) := by
    simp [date, dayText]
  have letters := (language.joins joiner hj).2
  rw [written]
  refine language.fits.comesTo hw (language.isMiddle_dayText t) (month_bounds h) rfl ?_
    (language.settled_numbers hw hj h hour ending gap) ?_
  · exact .cons (by decide) ((mixes_padded 4 _).append (letters.append
      ((mixes_clockText _ _ _).append mixes)))
  · rw [← language.dotted_numbers h]
    exact tight_units _ _ _ (language.isUnit_day t)

end

/-! ## Reading a long form -/

section
variable (language : DayFirst) {t : CivilTime} (h : t.IsOrdinary) {time : List Char} {hour : Nat}
  (tells : Tells t time hour)
include h tells

theorem read_dayFirst :
    dayFirst.findSome? (·.read (language.numbers t ++ time)) = some { t with hour := hour } := by
  unfold numbers
  obtain e | e := language.dot_cases <;> rw [e]
  · rw [List.append_nil]
    exact tells.read_dayFirst h (writes_day h) (writes_month h) (writes_year h)
  · exact tells.read_dayFirst_dotted h (writes_day h) (writes_month h) (writes_year h)

end

end DayFirst

/-- A date with its day for the month and its month for the day. -/
def swapped (t : CivilTime) : CivilTime := { t with month := t.day, day := t.month }

theorem isOrdinary_swapped {t : CivilTime} (h : t.IsOrdinary) (early : t.day ≤ 12) :
    (swapped t).IsOrdinary := by
  have month := month_bounds h
  have day := day_bounds h
  have date := h.date
  have days : 28 ≤ daysInMonth t.year t.day := by
    unfold daysInMonth
    split
    · split <;> omega
    · split <;> omega
  refine { h with date := ?_ }
  simp only [isDate, Bool.and_eq_true, decide_eq_true_eq] at date
  show isDate t.year t.day t.month = true
  simp only [isDate, Bool.and_eq_true, decide_eq_true_eq, date, early, true_and]
  omega

/-- Where the month is read first, a day is read as the month if it can be one. -/
theorem DayFirst.read_monthFirst (language : DayFirst) {t : CivilTime} (h : t.IsOrdinary) :
    monthFirst.findSome? (·.read (language.numbers t ++ dottedClock t.hour t.minute t.second)) =
      if language.dot = "" ∧ t.day ≤ 12 then some (swapped t) else none := by
  have tells := tells_hours h h.hour
  obtain e | e := language.dots <;> rw [numbers, e]
  · rw [show "".toList = [] from rfl, List.append_nil]
    by_cases early : t.day ≤ 12
    · rw [if_pos ⟨rfl, early⟩]
      have other := isOrdinary_swapped h early
      exact (tells_hours other h.hour).read_monthFirst other (writes_month h) (writes_day h)
        (writes_year other)
    · rw [if_neg fun early' => early early'.2]
      exact tells.read_monthFirst_late (writes_day h) (writes_month h) (writes_year h) (by omega)
  · rw [if_neg fun early => absurd early.1 (by decide)]
    exact tells.read_monthFirst_dotted (writes_day h) _ _

/-! ## German, Dutch, French and English -/

def germanNames : Names where
  months := ["Januar", "Februar", "März", "April", "Mai", "Juni", "Juli", "August", "September",
    "Oktober", "November", "Dezember"]
  weekdays := ["Montag", "Dienstag", "Mittwoch", "Donnerstag", "Freitag", "Samstag", "Sonntag"]

def dutchNames : Names where
  months := ["januari", "februari", "maart", "april", "mei", "juni", "juli", "augustus",
    "september", "oktober", "november", "december"]
  weekdays := ["maandag", "dinsdag", "woensdag", "donderdag", "vrijdag", "zaterdag", "zondag"]

def frenchNames : Names where
  months := ["janvier", "février", "mars", "avril", "mai", "juin", "juillet", "août", "septembre",
    "octobre", "novembre", "décembre"]
  weekdays := ["lundi", "mardi", "mercredi", "jeudi", "vendredi", "samedi", "dimanche"]

def englishNames : Names where
  months := ["January", "February", "March", "April", "May", "June", "July", "August", "September",
    "October", "November", "December"]
  weekdays := ["Monday", "Tuesday", "Wednesday", "Thursday", "Friday", "Saturday", "Sunday"]

/-- The letters of `at` and of the markers in lower case. -/
def englishLetters : List Char := ['a', 't', 'p', 'm']

theorem german_fits : Fits german germanNames ['u', 'm'] := by
  constructor <;> decide

theorem dutch_fits : Fits dutch dutchNames ['o', 'm'] := by
  constructor <;> decide

theorem french_fits : Fits french frenchNames ['à'] := by
  constructor <;> decide

theorem english_fits : Fits english englishNames englishLetters := by
  constructor <;> decide

def inGerman : DayFirst where
  symbols := german
  names := germanNames
  comma := ","
  dot := "."
  joiners := [" ", " um "]
  letters := ['u', 'm']
  fits := german_fits
  commas := .inr rfl
  dots := .inr rfl
  joins := by decide

def inDutch : DayFirst where
  symbols := dutch
  names := dutchNames
  comma := ""
  dot := ""
  joiners := [" ", " om "]
  letters := ['o', 'm']
  fits := dutch_fits
  commas := .inl rfl
  dots := .inl rfl
  joins := by decide

def inFrench : DayFirst where
  symbols := french
  names := frenchNames
  comma := ""
  dot := ""
  joiners := [" ", " à "]
  letters := ['à']
  fits := french_fits
  commas := .inl rfl
  dots := .inl rfl
  joins := by decide

def inBritish : DayFirst where
  symbols := english
  names := englishNames
  comma := ","
  dot := ""
  joiners := [" at "]
  letters := englishLetters
  fits := english_fits
  commas := .inr rfl
  dots := .inl rfl
  joins := by decide

/-- The languages that always write the day first, by the codes that name them in identifiers. -/
def dayFirstLanguages : List (String × DayFirst) :=
  [("de", inGerman), ("nl", inDutch), ("fr", inFrench)]

theorem symbolsOf_dayFirst :
    ∀ entry ∈ dayFirstLanguages,
      symbolsOf entry.1 = entry.2.symbols ∧ entry.1 ≠ "en" ∧ entry.1 ≠ "ja" := by
  simp only [dayFirstLanguages, List.forall_mem_cons]
  exact ⟨⟨rfl, by decide, by decide⟩, ⟨rfl, by decide, by decide⟩, ⟨rfl, by decide, by decide⟩,
    nofun⟩

section
variable {code : String} {language : DayFirst} (spoken : (code, language) ∈ dayFirstLanguages)
  {identifier : String} (hl : languageOf identifier = code) {weekday joiner : String}
  (hw : weekday ∈ language.names.weekdays) (hj : joiner ∈ language.joiners) {t : CivilTime}
  (h : t.IsOrdinary)
include spoken hl hw hj h

/-- What becomes of a long form with the day first in any country. -/
theorem read_write :
    (Locale.ofIdentifier identifier).read (language.write weekday joiner t) =
      if MonthLeads (countryOf identifier) then
        if language.dot = "" ∧ t.day ≤ 12 then some (swapped t) else none
      else some t := by
  obtain ⟨words, english, japanese⟩ := symbolsOf_dayFirst _ spoken
  subst hl
  have comes := (language.comesTo hw hj h t.hour [] nofun nofun).plain
  rw [List.append_nil, ← DayFirst.write] at comes
  rw [Locale.read, ofIdentifier_symbols, words, comes, ofIdentifier_layouts english japanese]
  split
  · exact language.read_monthFirst h
  · exact language.read_dayFirst h (tells_hours h h.hour)

/-- Where the country does not put the month first, a long form with the day first is read as its own
date. Where it does, the long form is read as another date exactly if no dot follows the day and the
day is the number of another month. -/
theorem read_write_kept_iff :
    (¬ MonthLeads (countryOf identifier) →
      (Locale.ofIdentifier identifier).read (language.write weekday joiner t) = some t) ∧
    ((Locale.ofIdentifier identifier).read (language.write weekday joiner t) = some t ∨
        (Locale.ofIdentifier identifier).read (language.write weekday joiner t) = none ↔
      ¬ (MonthLeads (countryOf identifier) ∧ language.dot = "" ∧ t.day ≤ 12 ∧ t.day ≠ t.month)) := by
  rw [read_write spoken hl hw hj h]
  refine ⟨fun other => if_neg other, ?_⟩
  by_cases leads : MonthLeads (countryOf identifier)
  · by_cases early : language.dot = "" ∧ t.day ≤ 12
    · have same : swapped t = t ↔ t.day = t.month := by
        refine ⟨fun e => congrArg CivilTime.month e, fun e => ?_⟩
        rw [swapped, e]
        exact congrArg (fun day => { t with day := day }) e.symm
      simp [leads, early, same]
    · have kept : ¬ (MonthLeads (countryOf identifier) ∧ language.dot = "" ∧ t.day ≤ 12 ∧
          t.day ≠ t.month) := fun lost => early ⟨lost.2.1, lost.2.2.1⟩
      exact iff_of_true (.inr (by rw [if_pos leads, if_neg early])) kept
  · simp [leads]

end

/-- The second of March is the second of March in France, but another date in Canada. -/
theorem secondOfMarch_in_french :
    inFrench.write "samedi" " " secondOfMarch = "samedi 2 mars 2024 15:04:05" ∧
    (Locale.ofIdentifier "fr_FR").read "samedi 2 mars 2024 15:04:05" = some secondOfMarch ∧
    ¬ ((Locale.ofIdentifier "fr_CA").read "samedi 2 mars 2024 15:04:05" = some secondOfMarch ∨
      (Locale.ofIdentifier "fr_CA").read "samedi 2 mars 2024 15:04:05" = none) := by
  have written : inFrench.write "samedi" " " secondOfMarch = "samedi 2 mars 2024 15:04:05" := by
    decide
  have spoken : ("fr", inFrench) ∈ dayFirstLanguages := by simp [dayFirstLanguages]
  have read {identifier : String} (hl : languageOf identifier = "fr") :=
    read_write_kept_iff spoken hl (show "samedi" ∈ inFrench.names.weekdays by decide)
      (show " " ∈ inFrench.joiners by decide) secondOfMarch_isOrdinary
  rw [written] at read
  refine ⟨written, (read (by decide)).1 (by decide), ?_⟩
  rw [(read (by decide)).2]
  decide

end ScriptBridge.Calendar
