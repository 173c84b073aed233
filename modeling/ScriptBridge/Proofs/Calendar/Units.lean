import ScriptBridge.Proofs.Calendar.Universal
/-!
The numbers of a date and its time of day.

A date of four-digit year and a time of day come to three numbers with single spaces between them
and a dotted time (`settled_numbers`), whatever gaps were around them. A time of day in either form
tells its hour after any date (`Tells`), so the layouts put the date together again in the order in
which they read its numbers (`Tells.read_monthFirst`, `Tells.read_yearFirst`, `Tells.read_dayFirst`).
-/
namespace ScriptBridge

/-- A time of day on a day of the calendar, in a year of four digits. -/
structure CivilTime.IsOrdinary (t : CivilTime) : Prop where
  year_nonneg : 0 ≤ t.year
  year_le : t.year ≤ 9999
  date : Calendar.isDate t.year t.month t.day = true
  hour : t.hour < 24
  minute : t.minute < 60
  second : t.second < 60
  nanosecond : t.nanosecond = 0

namespace Calendar

open Text

/-! ## Numbers -/

/-- The hour on a clock of twelve hours. -/
def clockHour (hour : Nat) : Nat := if hour % 12 = 0 then 12 else hour % 12

/-- A time of day, its hour without a zero before it. -/
def clockText (hour minute second : Nat) : String :=
  padded 1 hour ++ ":" ++ padded 2 minute ++ ":" ++ padded 2 second

theorem clockHour_bounds (hour : Nat) : 1 ≤ clockHour hour ∧ clockHour hour ≤ 12 := by
  unfold clockHour
  split <;> omega

theorem clockHour_half {hour : Nat} (h : hour < 24) :
    clockHour hour % 12 + (if 12 ≤ hour then 12 else 0) = hour := by
  unfold clockHour
  split <;> split <;> omega

theorem toList_padded_one (n : Nat) : (padded 1 n).toList = Number.natDigits n := by
  have digits : 0 < (Number.natDigits n).length := List.length_pos_of_ne_nil Nat.toDigits_ne_nil
  rw [toList_padded, Nat.sub_eq_zero_of_le digits]
  rfl

section
variable {t : CivilTime} (h : t.IsOrdinary)
include h

theorem month_bounds : 1 ≤ t.month ∧ t.month ≤ 12 := by
  have date := h.date
  simp only [isDate, Bool.and_eq_true, decide_eq_true_eq] at date
  omega

theorem day_bounds : 1 ≤ t.day ∧ t.day ≤ 31 := by
  have date := h.date
  have days : daysInMonth t.year t.month ≤ 31 := by
    unfold daysInMonth
    split
    · split <;> omega
    · split <;> omega
  simp only [isDate, Bool.and_eq_true, decide_eq_true_eq] at date
  omega

theorem writes_day : Writes 2 t.day (padded 1 t.day).toList := by
  have := day_bounds h
  exact writes_padded (by decide) (by decide) (by omega)

theorem writes_year : Writes 4 t.year.toNat (padded 4 t.year.toNat).toList := by
  have := h.year_le
  exact writes_padded (by decide) (by decide) (by omega)

theorem writes_month : Writes 2 t.month (Number.natDigits t.month) := by
  have := month_bounds h
  rw [← toList_padded_one]
  exact writes_padded (by decide) (by decide) (by omega)

theorem put_day (p : Parts) : Field.day.put? p t.day = some { p with day := some t.day } :=
  if_pos (day_bounds h)

theorem put_month (p : Parts) : Field.month.put? p t.month = some { p with month := some t.month } :=
  if_pos (month_bounds h)

theorem put_year (p : Parts) : Field.year.put? p t.year.toNat = some { p with year := some t.year } := by
  rw [Field.put?, Int.toNat_of_nonneg h.year_nonneg]

end

/-- An afternoon on the second of March. -/
def secondOfMarch : CivilTime :=
  { year := 2024, month := 3, day := 2, hour := 15, minute := 4, second := 5 }

theorem secondOfMarch_isOrdinary : secondOfMarch.IsOrdinary := by
  constructor <;> decide

/-! ## Date and time of day -/

/-- The fields of a date. -/
def Parts.ofDate (t : CivilTime) : Parts :=
  { year := some t.year, month := some t.month, day := some t.day }

/-- A time of day is read as an hour, whatever date it follows. -/
structure Tells (t : CivilTime) (time : List Char) (hour : Nat) : Prop where
  found : ∀ {date text found}, ReadsAs date text found → found {} = some (Parts.ofDate t) →
    (withTimes date).findSome? (·.read (text ++ time)) = some { t with hour := hour }
  refused : ∀ {date text found}, ReadsAs date text found → found {} = none →
    (withTimes date).findSome? (·.read (text ++ time)) = none

section
variable {t : CivilTime} (h : t.IsOrdinary) {hour : Nat}
include h

theorem tells_hours (hh : hour < 24) : Tells t (dottedClock hour t.minute t.second) hour := by
  have parts : hour % 12 + (if 12 ≤ hour then 12 else 0) = hour := by split <;> omega
  have := h.second
  have second : min t.second 59 = t.second := by omega
  have leap : t.second ≠ 60 := by omega
  refine ⟨fun r hf => ?_, fun r hf => ?_⟩
  · rw [r.hours hh h.minute h.second, hf]
    simp [Parts.toCivil?, Parts.atHour, Parts.ofDate, h.date, parts, second, leap, h.nanosecond]
  · rw [r.hours hh h.minute h.second, hf, Option.bind_none]

theorem tells_halves (hh : 1 ≤ hour ∧ hour ≤ 12) (afternoon : Bool) :
    Tells t (dottedClock hour t.minute t.second ++ halfSign afternoon)
      (hour % 12 + if afternoon then 12 else 0) := by
  have := h.second
  have second : min t.second 59 = t.second := by omega
  have leap : t.second ≠ 60 := by omega
  refine ⟨fun r hf => ?_, fun r hf => ?_⟩
  · rw [r.halves hh h.minute h.second, hf]
    simp [Parts.toCivil?, Parts.atHourOf, Parts.ofDate, h.date, second, leap, h.nanosecond]
  · rw [r.halves hh h.minute h.second, hf, Option.bind_none]

/-- The hour on the clock and the half of the day tell the hour. -/
theorem tells_marked :
    Tells t (dottedClock (clockHour t.hour) t.minute t.second ++ halfSign (12 ≤ t.hour)) t.hour := by
  have tells := tells_halves h (clockHour_bounds t.hour) (12 ≤ t.hour)
  simp only [decide_eq_true_eq, clockHour_half h.hour] at tells
  exact tells

end

/-! ## Units -/

theorem toList_clockText (hour minute second : Nat) : (clockText hour minute second).toList =
    (padded 1 hour).toList ++ ([':'] ++ (padded 2 minute).toList ++ ([':'] ++
      (padded 2 second).toList)) := by
  simp [clockText]

theorem isUnit_padded (width n : Nat) : IsUnit (padded width n).toList :=
  isUnit_of_isDigit (padded_ne_nil width n) isDigit_of_mem_padded

theorem isUnit_clockText (hour minute second : Nat) :
    IsUnit (clockText hour minute second).toList := by
  rw [toList_clockText]
  refine (isUnit_padded 1 hour).append fun c hc => ?_
  simp only [List.mem_append, List.mem_singleton] at hc
  rcases hc with (rfl | hc) | rfl | hc
  · decide
  · exact (isUnit_padded 2 minute).kept c hc
  · decide
  · exact (isUnit_padded 2 second).kept c hc

theorem dotted_clockText (hour minute second : Nat) :
    dotted (clockText hour minute second).toList = dottedClock hour minute second := by
  simp only [toList_clockText, dotted_append, dotted_of_isDigit isDigit_of_mem_padded, dottedClock]
  rfl

theorem exists_last (digits : List Char) (hne : digits ≠ [])
    (h : ∀ c ∈ digits, c.isDigit = true) (before : List Char) :
    ∃ r c, before ++ digits = r ++ [c] ∧ c.isDigit = true := by
  obtain ⟨r, c, rfl⟩ := (List.eq_nil_or_concat' digits).resolve_left hne
  exact ⟨before ++ r, c, (List.append_assoc before r [c]).symm, h c (by simp)⟩

theorem clockText_last (hour minute second : Nat) (before : List Char) :
    ∃ r c, before ++ (clockText hour minute second).toList = r ++ [c] ∧ c.isDigit = true := by
  rw [toList_clockText, ← List.append_assoc, ← List.append_assoc, ← List.append_assoc]
  exact exists_last _ (padded_ne_nil 2 second) isDigit_of_mem_padded _

/-- Three units and a time of day, with single spaces between them. -/
def unitsText (u₁ u₂ u₃ : List Char) : List Char := u₁ ++ ' ' :: (u₂ ++ ' ' :: (u₃ ++ [' ']))

section
variable {u₁ u₂ u₃ : List Char} (hour minute second : Nat)

theorem tight_units (hu₁ : IsUnit u₁) :
    Tight (dotted (unitsText u₁ u₂ u₃) ++ dottedClock hour minute second) := by
  obtain ⟨c, r, rfl, hc⟩ := hu₁.starts
  constructor
  · exact ⟨c, _, congrArg (· ++ dottedClock hour minute second) (dotted_cons hc _),
      isBlank_of_isDigit hc⟩
  · obtain ⟨s, d, e, hd⟩ := clockText_last hour minute second (unitsText (c :: r) u₂ u₃)
    refine ⟨dotted s, d, ?_, isBlank_of_isDigit hd⟩
    rw [← dotted_clockText, ← dotted_append, e, dotted_append, dotted_cons hd]
    rfl

/-- Three units and a time of day settle with single spaces between them. -/
theorem settled_units {g₁ g₂ g₃ g₄ ending : List Char} (hg₁ : IsGap g₁) (hu₁ : IsUnit u₁)
    (hg₂ : IsBreak g₂) (hu₂ : IsUnit u₂) (hg₃ : IsBreak g₃) (hu₃ : IsUnit u₃) (hg₄ : IsBreak g₄)
    (he : IsGap ending) :
    settled (g₁ ++ (u₁ ++ (g₂ ++ (u₂ ++ (g₃ ++ (u₃ ++ (g₄ ++
        ((clockText hour minute second).toList ++ ending)))))))) =
      dotted (unitsText u₁ u₂ u₃) ++ dottedClock hour minute second := by
  have first : ∃ lead, AllBlank (dotted lead) ∧ Collapses (g₁ ++ u₁) (lead ++ u₁) := by
    by_cases none : g₁ = []
    · subst none
      exact ⟨[], nofun, Collapses.unit hu₁⟩
    · exact ⟨[' '], by decide, Collapses.gap ⟨none, hg₁⟩ hu₁⟩
  obtain ⟨lead, blank, first⟩ := first
  have whole := first.append ((Collapses.gap hg₂ hu₂).append ((Collapses.gap hg₃ hu₃).append
    (Collapses.gap hg₄ (isUnit_clockText hour minute second))))
  have collapsed : lead ++ u₁ ++ (' ' :: u₂ ++ (' ' :: u₃ ++
      ' ' :: (clockText hour minute second).toList)) =
      lead ++ unitsText u₁ u₂ u₃ ++ (clockText hour minute second).toList := by
    simp [unitsText]
  rw [collapsed] at whole
  have settles := settled_eq whole he (clockText_last hour minute second _)
  simp only [List.append_assoc, dotted_append, dotted_clockText] at settles ⊢
  rw [settles, trim_blank_append blank, (tight_units hour minute second hu₁).trim_eq]

end

/-! ## Reading units -/

section
variable {f g k : Field} {a b c : Nat} {u₁ u₂ u₃ : List Char}

theorem dotted_unitsText (u₁ u₂ u₃ : List Char) :
    dotted (unitsText u₁ u₂ u₃) = unitsText (dotted u₁) (dotted u₂) (dotted u₃) := by
  simp only [unitsText, dotted, List.map_cons, List.map_append, List.map_nil]
  rfl

section
variable {v w x : Nat} (h₁ : Writes v a u₁) (h₂ : Writes w b u₂) (h₃ : Writes x c u₃)
include h₁ h₂ h₃

theorem dotted_unitsText_of_writes : dotted (unitsText u₁ u₂ u₃) = unitsText u₁ u₂ u₃ := by
  rw [dotted_unitsText, dotted_of_isDigit h₁.isDigit, dotted_of_isDigit h₂.isDigit,
    dotted_of_isDigit h₃.isDigit]

theorem tight_numbers (hour minute second : Nat) :
    Tight (unitsText u₁ u₂ u₃ ++ dottedClock hour minute second) := by
  rw [← dotted_unitsText_of_writes h₁ h₂ h₃]
  exact tight_units hour minute second h₁.isUnit

theorem settled_numbers {g₁ g₂ g₃ g₄ ending : List Char} (hour minute second : Nat)
    (hg₁ : IsGap g₁) (hg₂ : IsBreak g₂) (hg₃ : IsBreak g₃) (hg₄ : IsBreak g₄) (he : IsGap ending) :
    settled (g₁ ++ (u₁ ++ (g₂ ++ (u₂ ++ (g₃ ++ (u₃ ++ (g₄ ++
        ((clockText hour minute second).toList ++ ending)))))))) =
      unitsText u₁ u₂ u₃ ++ dottedClock hour minute second := by
  rw [settled_units hour minute second hg₁ h₁.isUnit hg₂ h₂.isUnit hg₃ h₃.isUnit hg₄ he,
    dotted_unitsText_of_writes h₁ h₂ h₃]

end

theorem readsAs_units (h₁ : Writes f.width a u₁) (h₂ : Writes g.width b u₂)
    (h₃ : Writes k.width c u₃) :
    ReadsAs (spaced [f, g, k]) (unitsText u₁ u₂ u₃)
      fun p => (f.put? p a).bind fun p => (g.put? p b).bind fun p => (k.put? p c).bind some :=
  .field h₁ (.field h₂ (.field h₃ .nil))

theorem readsAs_units_dotted (h₁ : Writes f.width a u₁) (h₂ : Writes g.width b u₂)
    (h₃ : Writes k.width c u₃) :
    ReadsAs ([.number f, .fixed ['.'], .blank] ++ spaced [g, k]) (unitsText (u₁ ++ ['.']) u₂ u₃)
      fun p => (f.put? p a).bind fun p => (g.put? p b).bind fun p => (k.put? p c).bind some := by
  rw [unitsText, List.append_assoc]
  exact .dotted h₁ (.field h₂ (.field h₃ .nil))

/-- Three numbers with a dot after the first are refused by a layout without that dot. -/
theorem readsAs_units_refused (h₁ : Writes f.width a u₁) (u₂ u₃ : List Char) :
    ReadsAs (spaced [f, g, k]) (unitsText (u₁ ++ ['.']) u₂ u₃) fun _ => none := by
  rw [unitsText, List.append_assoc]
  exact .refused h₁ _ _

end

namespace Tells
variable {t : CivilTime} {time : List Char} {hour : Nat} (tells : Tells t time hour)
  (h : t.IsOrdinary) {day month year : List Char} (d : Writes 2 t.day day)
  (m : Writes 2 t.month month) (y : Writes 4 t.year.toNat year)
include tells h d m y

theorem read_monthFirst :
    monthFirst.findSome? (·.read (unitsText month day year ++ time)) =
      some { t with hour := hour } :=
  tells.found (readsAs_units (f := .month) (g := .day) (k := .year) m d y)
    (by simp [put_month h, put_day h, put_year h, Parts.ofDate])

theorem read_yearFirst :
    yearFirst.findSome? (·.read (unitsText year month day ++ time)) =
      some { t with hour := hour } :=
  tells.found (readsAs_units (f := .year) (g := .month) (k := .day) y m d)
    (by simp [put_month h, put_day h, put_year h, Parts.ofDate])

theorem read_dayFirst :
    dayFirst.findSome? (·.read (unitsText day month year ++ time)) =
      some { t with hour := hour } := by
  have plain := tells.found (readsAs_units (f := .day) (g := .month) (k := .year) d m y)
    (by simp [put_month h, put_day h, put_year h, Parts.ofDate])
  rw [dayFirst, List.findSome?_append, plain, Option.some_or]

theorem read_dayFirst_dotted :
    dayFirst.findSome? (·.read (unitsText (day ++ ['.']) month year ++ time)) =
      some { t with hour := hour } := by
  have plain := tells.refused (readsAs_units_refused (f := .day) (g := .month) (k := .year) d month
    year) rfl
  have dotted := tells.found (readsAs_units_dotted (f := .day) (g := .month) (k := .year) d m y)
    (by simp [put_month h, put_day h, put_year h, Parts.ofDate])
  rw [dayFirst, List.findSome?_append, plain, dotted, Option.none_or]

omit h m y in
/-- The dot after a day gives it away. -/
theorem read_monthFirst_dotted (month year : List Char) :
    monthFirst.findSome? (·.read (unitsText (day ++ ['.']) month year ++ time)) = none :=
  tells.refused (readsAs_units_refused (f := .month) (g := .day) (k := .year) d month year) rfl

omit h in
theorem read_monthFirst_late (late : 12 < t.day) :
    monthFirst.findSome? (·.read (unitsText day month year ++ time)) = none := by
  have none : Field.month.put? {} t.day = none := if_neg (by omega)
  exact tells.refused (readsAs_units (f := .month) (g := .day) (k := .year) d m y) (by simp [none])

end Tells

end Calendar
end ScriptBridge
