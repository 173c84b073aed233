import ScriptBridge.Proofs.Calendar.DayFirst
/-!
English dates with a time of day on the clock of twelve hours, such as
`Saturday, March 2, 2024 at 3:04:05 PM` and `Saturday, 2 March 2024 at 3:04:05 PM`.

The markers of the halves of the day are looked for as they are written, in upper case. A marker in
lower case goes with the other letters, and what is left is a time of day that the clock of
twenty-four hours accepts too. So it is read as the hour on the clock (`EnglishForm.read_write`).
-/
namespace ScriptBridge.Calendar

open Text

/-- The two orders in which English dates are written. -/
inductive EnglishForm where
  | american
  | british
  deriving DecidableEq

/-- The marker of a half of the day. -/
def englishMarker (upper afternoon : Bool) : String :=
  if upper then (if afternoon then "PM" else "AM") else if afternoon then "pm" else "am"

namespace EnglishForm

/-- The locale whose dates have a form. -/
def identifier : EnglishForm → String
  | american => "en_US"
  | british => "en_GB"

/-- The long form of a date. -/
def date : EnglishForm → String → CivilTime → String
  | american, weekday, t =>
    weekday ++ ", " ++ englishNames.month t.month ++ " " ++ padded 1 t.day ++ ", " ++
      padded 4 t.year.toNat
  | british, weekday, t => inBritish.date weekday t

/-- The long form of a date with its time of day on the clock of twelve hours, and the marker of its
half of the day in upper or lower case. -/
def write (form : EnglishForm) (weekday : String) (upper : Bool) (t : CivilTime) : String :=
  form.date weekday t ++ " at " ++ clockText (clockHour t.hour) t.minute t.second ++ " " ++
    englishMarker upper (12 ≤ t.hour)

/-- The numbers of a date. -/
def numbers : EnglishForm → CivilTime → List Char
  | american, t =>
    unitsText (Number.natDigits t.month) (padded 1 t.day).toList (padded 4 t.year.toNat).toList
  | british, t => inBritish.numbers t

section
variable (form : EnglishForm) {weekday : String} (hw : weekday ∈ englishNames.weekdays)
  {t : CivilTime} (h : t.IsOrdinary) (hour : Nat) (ending : List Char)
include h

theorem read_numbers {time : List Char} {hour : Nat} (tells : Tells t time hour) :
    (Locale.ofIdentifier form.identifier).layouts.findSome? (·.read (form.numbers t ++ time)) =
      some { t with hour := hour } := by
  cases form with
  | american => exact tells.read_monthFirst h (writes_day h) (writes_month h) (writes_year h)
  | british => exact inBritish.read_dayFirst h tells

include hw

theorem settled_american (gap : IsGap ending) :
    settled (weekday.toList ++ [',', ' '] ++ (Number.natDigits t.month ++
      ' ' :: ' ' :: ((padded 1 t.day).toList ++ ([',', ' '] ++ ((padded 4 t.year.toNat).toList ++
        (" at ".toList ++ ((clockText hour t.minute t.second).toList ++ ending))))))) =
      american.numbers t ++ dottedClock hour t.minute t.second := by
  have start : IsGap (weekday.toList ++ [',', ' ']) := by
    rw [IsGap, List.forall_mem_append]
    exact ⟨english_fits.gaps weekday hw, by decide⟩
  have comma : IsBreak [',', ' '] := by decide
  have joiner : IsBreak " at ".toList := by decide
  rw [numbers, ← settled_numbers (writes_month h) (writes_day h) (writes_year h) hour t.minute
    t.second start isBreak_spaces comma joiner gap]
  simp only [List.append_assoc, List.cons_append, List.nil_append]

theorem comesTo (gap : IsGap ending) (mixes : Mixes englishLetters ending) :
    ComesTo english
      ((form.date weekday t ++ " at " ++ clockText hour t.minute t.second).toList ++ ending)
      (form.numbers t ++ dottedClock hour t.minute t.second) := by
  cases form with
  | british => exact inBritish.comesTo hw (by decide) h hour ending gap mixes
  | american =>
    have written : (american.date weekday t ++ " at " ++
        clockText hour t.minute t.second).toList ++ ending =
        weekday.toList ++ [',', ' '] ++ ((englishNames.month t.month).toList ++
          ' ' :: ((padded 1 t.day).toList ++ ([',', ' '] ++ ((padded 4 t.year.toNat).toList ++
            (" at ".toList ++ ((clockText hour t.minute t.second).toList ++ ending)))))) := by
      simp [date]
    have comma : Mixes englishLetters [',', ' '] := by decide
    have joiner : Mixes englishLetters " at ".toList := by decide
    rw [written]
    refine english_fits.comesTo hw ⟨.inr rfl, by decide⟩ (month_bounds h) rfl ?_
      (settled_american hw h hour ending gap)
      (tight_numbers (writes_month h) (writes_day h) (writes_year h) hour t.minute t.second)
    exact .cons (by decide) ((mixes_padded 1 _).append (comma.append ((mixes_padded 4 _).append
      (joiner.append ((mixes_clockText _ _ _).append mixes)))))

/-- A marker in upper case becomes the sign of its half of the day. -/
theorem universal_upper :
    universal english (form.write weekday true t).toList =
      form.numbers t ++ (dottedClock (clockHour t.hour) t.minute t.second ++
        halfSign (12 ≤ t.hour)) := by
  have comes := comesTo form hw h (clockHour t.hour) [' '] (by decide) (by decide)
  have written : (form.write weekday true t).toList =
      (form.date weekday t ++ " at " ++ clockText (clockHour t.hour) t.minute t.second).toList ++
        [' '] ++ english.marker (12 ≤ t.hour) := by
    rw [write, String.toList_append, String.toList_append]
    refine congrArg _ ?_
    cases decide (12 ≤ t.hour) <;> rfl
  rw [written, comes.signed List.getLast?_concat, List.append_assoc]

/-- A marker in lower case is dropped. -/
theorem universal_lower :
    universal english (form.write weekday false t).toList =
      form.numbers t ++ dottedClock (clockHour t.hour) t.minute t.second := by
  have gap : ∀ afternoon, IsGap ([' '] ++ (englishMarker false afternoon).toList) := by decide
  have mixes : ∀ afternoon,
      Mixes englishLetters ([' '] ++ (englishMarker false afternoon).toList) := by decide
  have comes := comesTo form hw h (clockHour t.hour) _ (gap (12 ≤ t.hour)) (mixes _)
  have written : (form.write weekday false t).toList =
      (form.date weekday t ++ " at " ++ clockText (clockHour t.hour) t.minute t.second).toList ++
        ([' '] ++ (englishMarker false (12 ≤ t.hour)).toList) := by
    rw [write, String.toList_append, String.toList_append, List.append_assoc]
    rfl
  rw [written, comes.plain]

/-- What becomes of a long form with a marker. -/
theorem read_write (upper : Bool) :
    (Locale.ofIdentifier form.identifier).read (form.write weekday upper t) =
      some (if upper then t else { t with hour := clockHour t.hour }) := by
  have bounds := clockHour_bounds t.hour
  have words : (Locale.ofIdentifier form.identifier).symbols = english := by
    cases form <;> rfl
  rw [Locale.read, words]
  cases upper with
  | true =>
    rw [universal_upper form hw h]
    exact read_numbers form h (tells_marked h)
  | false =>
    rw [universal_lower form hw h]
    exact read_numbers form h (tells_hours h (by omega))

/-- A marker in upper case is never lost. One in lower case is, unless the hour on the clock is the
hour of the day. -/
theorem marker_kept_iff (upper : Bool) :
    (upper = true →
      (Locale.ofIdentifier form.identifier).read (form.write weekday upper t) = some t) ∧
    ((Locale.ofIdentifier form.identifier).read (form.write weekday upper t) = some t ∨
        (Locale.ofIdentifier form.identifier).read (form.write weekday upper t) = none ↔
      upper = true ∨ (1 ≤ t.hour ∧ t.hour ≤ 12)) := by
  rw [read_write form hw h]
  have same : ({ t with hour := clockHour t.hour } : CivilTime) = t ↔ 1 ≤ t.hour ∧ t.hour ≤ 12 := by
    have clock : clockHour t.hour = t.hour ↔ 1 ≤ t.hour ∧ t.hour ≤ 12 := by
      have := h.hour
      unfold clockHour
      split <;> omega
    rw [← clock]
    exact ⟨congrArg CivilTime.hour, congrArg fun hour => { t with hour := hour }⟩
  cases upper with
  | true => simp
  | false => simp [same]

end

end EnglishForm

/-- In Britain an afternoon with its marker in lower case comes out as early in the morning. -/
theorem secondOfMarch_in_britain :
    EnglishForm.british.write "Saturday" false secondOfMarch =
      "Saturday, 2 March 2024 at 3:04:05 pm" ∧
    ¬ ((Locale.ofIdentifier "en_GB").read "Saturday, 2 March 2024 at 3:04:05 pm" =
        some secondOfMarch ∨
      (Locale.ofIdentifier "en_GB").read "Saturday, 2 March 2024 at 3:04:05 pm" = none) := by
  have written : EnglishForm.british.write "Saturday" false secondOfMarch =
      "Saturday, 2 March 2024 at 3:04:05 pm" := by
    decide
  have read := (EnglishForm.british.marker_kept_iff
    (show "Saturday" ∈ englishNames.weekdays by decide) secondOfMarch_isOrdinary false).2
  rw [written] at read
  refine ⟨written, ?_⟩
  rw [show "en_GB" = EnglishForm.british.identifier from rfl, read]
  decide

end ScriptBridge.Calendar
