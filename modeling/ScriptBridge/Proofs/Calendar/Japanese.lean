import ScriptBridge.Proofs.Calendar.English
/-!
Japanese dates, such as `2024年11月2日 土曜日 15:04:05`.

The name of a month is its number, so that of January stands in that of November. The longest name
that occurs is taken, and none can start in the year before it or end after it: a name has its last
character nowhere else, and the weekday that is written with this character has no digit before it.
-/
namespace ScriptBridge.Calendar

open Text

namespace InJapanese

def weekdays : List String := ["月", "火", "水", "木", "金", "土", "日"]

/-- The name of a month. -/
def month (n : Nat) : List Char := Number.natDigits n ++ ['月']

/-- The long form of a date. -/
def date (weekday : String) (t : CivilTime) : String :=
  padded 4 t.year.toNat ++ "年" ++ padded 1 t.month ++ "月" ++ padded 1 t.day ++ "日 " ++ weekday ++
    "曜日 "

/-- The long form of a date with its time of day on the clock of twenty-four hours. -/
def writeHours (weekday : String) (t : CivilTime) : String :=
  date weekday t ++ clockText t.hour t.minute t.second

/-- The long form of a date with the half of the day and its time of day on the clock of twelve
hours. -/
def writeHalves (weekday : String) (t : CivilTime) : String :=
  date weekday t ++ (if 12 ≤ t.hour then "午後" else "午前") ++
    clockText (clockHour t.hour) t.minute t.second

/-! ## The month -/

theorem listed : ∀ n < 13, 1 ≤ n → month n ∈ japanese.months.map String.toList := by
  decide

theorem longest : ∀ n < 13, 1 ≤ n →
    longestName? (month n) (japanese.months.map String.toList) = some (n, month n) := by
  decide

/-- What names of months are made of. -/
structure IsMonthName (name : List Char) : Prop where
  starts : name.head?.any Char.isDigit = true
  named : '月' ∈ name
  last : '月' ∉ name.dropLast
  year : '年' ∉ name
  spaceless : ' ' ∉ name

theorem isMonthName : ∀ name ∈ japanese.months.map String.toList, IsMonthName name := by
  have shapes : ∀ name ∈ japanese.months.map String.toList,
      name.head?.any Char.isDigit = true ∧ '月' ∈ name ∧ '月' ∉ name.dropLast ∧ '年' ∉ name ∧
        ' ' ∉ name := by
    decide
  intro name listed
  obtain ⟨starts, named, last, year, spaceless⟩ := shapes name listed
  exact ⟨starts, named, last, year, spaceless⟩

/-- What stands between the day and the time of day. -/
def dayEnding (weekday : String) : List Char :=
  ['日', ' '] ++ (weekday.toList ++ ['曜', '日', ' '])

/-- The letters beside the markers. -/
def letters : List Char := ['年', '月', '火', '水', '木', '金', '土', '日', '曜']

section
variable {weekday : String} (hw : weekday ∈ weekdays)
include hw

theorem isBreak_dayEnding : IsBreak (dayEnding weekday) := by
  have gaps : ∀ weekday ∈ weekdays, IsBreak (dayEnding weekday) := by decide +kernel
  exact gaps weekday hw

theorem mixes_dayEnding : Mixes letters (dayEnding weekday) := by
  have mixes : ∀ weekday ∈ weekdays, Mixes letters (dayEnding weekday) := by decide
  exact mixes weekday hw

/-- The name of a month stands in a date where the month stands. -/
theorem onlyWithin {name before digits rest : List Char} {n : Nat} (hname : IsMonthName name)
    (hb : '月' ∉ before) (hd : '月' ∉ digits) (hr : '月' ∉ rest) :
    OnlyWithin name (before ++ ['年']) (month n) (digits ++ (dayEnding weekday ++ rest)) := by
  obtain ⟨c, starts, digit⟩ := (Option.any_eq_true _ _).mp hname.starts
  refine ⟨List.ne_nil_of_mem hname.named, ?_, ?_, ?_, ?_⟩
  · exact contains_eq_false hname.named (by simp [hb])
  · have wordy : ∀ weekday ∈ weekdays, ∀ c ∈ weekday.toList ++ ['曜', '日', ' '],
        c.isDigit = false := by decide
    have skipped : c ∉ weekday.toList ++ ['曜', '日', ' '] := fun hc => by
      rw [wordy weekday hw c hc] at digit
      cases digit
    have day : contains (digits ++ ['日', ' ']) name = false :=
      contains_eq_false hname.named (by simp [hd])
    have apart : Apart name (digits ++ ['日', ' '])
        (weekday.toList ++ ['曜', '日', ' '] ++ rest) := by
      refine Apart.of_last fun c hc => ?_
      rw [List.getLast?_append_of_ne_nil _ (List.cons_ne_nil _ _)] at hc
      cases hc
      exact hname.spaceless
    have parts : digits ++ (dayEnding weekday ++ rest) =
        digits ++ ['日', ' '] ++ (weekday.toList ++ ['曜', '日', ' '] ++ rest) := by
      simp [dayEnding]
    rw [parts, contains_append apart (List.ne_nil_of_mem hname.named), day,
      contains_skip starts skipped, contains_eq_false hname.named hr, Bool.or_false]
  · refine Apart.of_last fun c hc => ?_
    rw [List.getLast?_concat] at hc
    cases hc
    exact hname.year
  · refine Apart.of_dropLast fun c hc => ?_
    rw [month, List.getLast?_concat] at hc
    cases hc
    exact hname.last

end

/-- A date with its month as a number. -/
def numbered (weekday : String) (t : CivilTime) : List Char :=
  (padded 4 t.year.toNat).toList ++ ['年'] ++ (Number.natDigits t.month ++
    ' ' :: ((padded 1 t.day).toList ++ dayEnding weekday))

theorem numbered_last (weekday : String) (t : CivilTime) :
    (numbered weekday t).getLast? = some ' ' := by
  have ends : numbered weekday t = (padded 4 t.year.toNat).toList ++ ['年'] ++
      (Number.natDigits t.month ++ ' ' :: ((padded 1 t.day).toList ++ ['日', ' '] ++
        (weekday.toList ++ ['曜', '日']))) ++ [' '] := by
    simp [numbered, dayEnding]
  rw [ends, List.getLast?_concat]

section
variable {weekday : String} (hw : weekday ∈ weekdays) {t : CivilTime} (h : t.IsOrdinary)
include hw h

theorem replaceMonth_eq {rest : List Char} (hr : '月' ∉ rest) :
    replaceMonth japanese ((date weekday t).toList ++ rest) = numbered weekday t ++ rest := by
  have bounds := month_bounds h
  have plain (width n : Nat) : '月' ∉ (padded width n).toList := by
    have digits : Mixes [] (padded width n).toList := mixes_padded width n
    exact digits.notMem (by decide) (by decide)
  have written : (date weekday t).toList ++ rest = (padded 4 t.year.toNat).toList ++ ['年'] ++
      (month t.month ++ ((padded 1 t.day).toList ++ (dayEnding weekday ++ rest))) := by
    simp [date, month, dayEnding, toList_padded_one t.month]
  rw [written, replaceMonth_between (longest t.month (by omega) bounds.1)
    (listed t.month (by omega) bounds.1)
    fun name listed => onlyWithin hw (isMonthName name listed) (plain 4 _) (plain 1 _) hr]
  simp only [numbered, List.append_assoc, List.cons_append]

theorem settled_numbered (hour : Nat) :
    settled (numbered weekday t ++ (clockText hour t.minute t.second).toList) =
      unitsText (padded 4 t.year.toNat).toList (Number.natDigits t.month) (padded 1 t.day).toList ++
        dottedClock hour t.minute t.second := by
  have start : IsGap [] := nofun
  have year : IsBreak ['年'] := by decide +kernel
  rw [← settled_numbers (writes_year h) (writes_month h) (writes_day h) hour t.minute t.second start
    year isBreak_space (isBreak_dayEnding hw) start]
  simp only [numbered, List.append_assoc, List.cons_append, List.nil_append, List.append_nil]

omit h in
theorem mixes_numbered : Mixes letters (numbered weekday t) := by
  have year : Mixes letters ['年'] := by decide
  have digits : Mixes letters (Number.natDigits t.month) := by
    rw [← toList_padded_one]
    exact mixes_padded 1 _
  exact ((mixes_padded 4 _).append year).append (digits.append (.cons (by decide)
    ((mixes_padded 1 _).append (mixes_dayEnding hw))))

end

/-! ## Reading a long form -/

/-- What the markers are made of; each has a character that the other one lacks. -/
theorem marker_shape : ∀ afternoon, '月' ∉ japanese.marker afternoon ∧
    '午' ∈ japanese.marker afternoon ∧ ' ' ∉ japanese.marker afternoon ∧
    (∀ c ∈ japanese.marker afternoon, c.isDigit = false) ∧
    ∃ c ∈ japanese.marker !afternoon, isMark c = false ∧
      c ∉ letters ++ japanese.marker afternoon := by
  decide

/-- The numbers of a date. -/
def numbers (t : CivilTime) : List Char :=
  unitsText (padded 4 t.year.toNat).toList (Number.natDigits t.month) (padded 1 t.day).toList

section
variable {weekday : String} (hw : weekday ∈ weekdays) {t : CivilTime} (h : t.IsOrdinary)
include hw h

theorem universal_hours :
    universal japanese (writeHours weekday t).toList =
      numbers t ++ dottedClock t.hour t.minute t.second := by
  have clock : Mixes [] (clockText t.hour t.minute t.second).toList := mixes_clockText _ _ _
  have month := replaceMonth_eq hw h (clock.notMem (by decide) (by decide))
  rw [← String.toList_append, ← writeHours] at month
  refine universal_unmarked month (fun afternoon => ?_) (settled_numbered hw h t.hour)
    (tight_numbers (writes_year h) (writes_month h) (writes_day h) _ _ _)
  refine ((mixes_numbered hw).append (mixes_clockText _ _ _)).contains_eq_false ⟨'午', ?_⟩
  cases afternoon <;> decide

omit hw h in
theorem toList_writeHalves (weekday : String) (t : CivilTime) :
    (writeHalves weekday t).toList = (date weekday t).toList ++
      (japanese.marker (12 ≤ t.hour) ++
        (clockText (clockHour t.hour) t.minute t.second).toList) := by
  rw [writeHalves, String.toList_append, String.toList_append, List.append_assoc]
  by_cases afternoon : 12 ≤ t.hour <;> simp [afternoon, Symbols.marker, japanese]

theorem universal_halves :
    universal japanese (writeHalves weekday t).toList =
      numbers t ++ (dottedClock (clockHour t.hour) t.minute t.second ++ halfSign (12 ≤ t.hour)) := by
  rw [← List.append_assoc, toList_writeHalves]
  generalize decide (12 ≤ t.hour) = afternoon
  obtain ⟨month, own, spaceless, wordy, other⟩ := marker_shape afternoon
  have clock : Mixes [] (clockText (clockHour t.hour) t.minute t.second).toList :=
    mixes_clockText _ _ _
  have mixes := mixes_numbered hw (t := t)
  have rest : '月' ∉ japanese.marker afternoon ++
      (clockText (clockHour t.hour) t.minute t.second).toList :=
    List.mem_append.not.mpr (not_or.mpr ⟨month, clock.notMem (by decide) (by decide)⟩)
  refine universal_marked (replaceMonth_eq hw h rest) ⟨List.ne_nil_of_mem own, ?_, ?_, ?_, ?_⟩ ?_
    (settled_numbered hw h (clockHour t.hour))
    (tight_numbers (writes_year h) (writes_month h) (writes_day h) _ _ _)
  · exact mixes.contains_eq_false ⟨'午', own, by decide⟩
  · exact clock.contains_eq_false ⟨'午', own, by decide⟩
  · refine Apart.of_last fun c hc => ?_
    rw [numbered_last] at hc
    cases hc
    exact spaceless
  · obtain ⟨c, rest, e, digit⟩ := (isUnit_clockText (clockHour t.hour) t.minute t.second).starts
    refine Apart.of_head fun d hd found => ?_
    rw [e] at hd
    cases hd
    rw [wordy c found] at digit
    cases digit
  · have marked : Mixes (letters ++ japanese.marker afternoon) (japanese.marker afternoon) :=
      fun c hc => .inr (List.mem_append_right _ hc)
    exact ((mixes.mono (List.subset_append_left _ _)).append (marked.append
      (clock.mono (List.nil_subset _)))).contains_eq_false other

theorem read_hours :
    (Locale.ofIdentifier "ja_JP").read (writeHours weekday t) = some t := by
  have words : (Locale.ofIdentifier "ja_JP").symbols = japanese := rfl
  rw [Locale.read, words, universal_hours hw h]
  exact (tells_hours h h.hour).read_yearFirst h (writes_day h) (writes_month h) (writes_year h)

theorem read_halves :
    (Locale.ofIdentifier "ja_JP").read (writeHalves weekday t) = some t := by
  have words : (Locale.ofIdentifier "ja_JP").symbols = japanese := rfl
  rw [Locale.read, words, universal_halves hw h]
  exact (tells_marked h).read_yearFirst h (writes_day h) (writes_month h) (writes_year h)

end

end InJapanese

/-- American and Japanese long forms are read as the very date and time of day that they write. -/
theorem longForms_exact {t : CivilTime} (h : t.IsOrdinary) :
    (∀ weekday ∈ englishNames.weekdays,
      (Locale.ofIdentifier "en_US").read (EnglishForm.american.write weekday true t) = some t) ∧
    ∀ weekday ∈ InJapanese.weekdays,
      (Locale.ofIdentifier "ja_JP").read (InJapanese.writeHours weekday t) = some t ∧
      (Locale.ofIdentifier "ja_JP").read (InJapanese.writeHalves weekday t) = some t :=
  ⟨fun _ hw => EnglishForm.american.read_write hw h true,
    fun _ hw => ⟨InJapanese.read_hours hw h, InJapanese.read_halves hw h⟩⟩

theorem secondOfMarch_exact :
    EnglishForm.american.write "Saturday" true secondOfMarch =
      "Saturday, March 2, 2024 at 3:04:05 PM" ∧
    InJapanese.writeHours "土" secondOfMarch = "2024年3月2日 土曜日 15:04:05" ∧
    InJapanese.writeHalves "土" secondOfMarch = "2024年3月2日 土曜日 午後3:04:05" ∧
    (Locale.ofIdentifier "en_US").read "Saturday, March 2, 2024 at 3:04:05 PM" =
      some secondOfMarch ∧
    (Locale.ofIdentifier "ja_JP").read "2024年3月2日 土曜日 15:04:05" = some secondOfMarch ∧
    (Locale.ofIdentifier "ja_JP").read "2024年3月2日 土曜日 午後3:04:05" = some secondOfMarch := by
  have american : EnglishForm.american.write "Saturday" true secondOfMarch =
      "Saturday, March 2, 2024 at 3:04:05 PM" := by
    decide
  have hours : InJapanese.writeHours "土" secondOfMarch = "2024年3月2日 土曜日 15:04:05" := by
    decide
  have halves : InJapanese.writeHalves "土" secondOfMarch = "2024年3月2日 土曜日 午後3:04:05" := by
    decide
  obtain ⟨english, japanese⟩ := longForms_exact secondOfMarch_isOrdinary
  have read := english "Saturday" (by decide)
  have read' := japanese "土" (by decide)
  rw [american] at read
  rw [hours, halves] at read'
  exact ⟨american, hours, halves, read, read'⟩

end ScriptBridge.Calendar
