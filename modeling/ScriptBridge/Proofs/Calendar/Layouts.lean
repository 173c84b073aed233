import Mathlib.Algebra.Group.Nat.Defs
import ScriptBridge.Calendar.Locale
import ScriptBridge.Proofs.Text.Trim
/-!
Dates and times of day are read back from the digits that write them.

A field takes the digits of a number whole, and refuses the number if it is out of its range
(`readItem_number`). So fields with blanks between them read what was written for them one after the
other (`ReadsAs.field`, `ReadsAs.dotted`), a dotted time of day is read on either clock, and of the
two layouts of a date with a time of day the one reads what the other refuses (`ReadsAs.hours`,
`ReadsAs.halves`).
-/
namespace ScriptBridge.Calendar

open Text

/-! ## Digits -/

/-- A text of some digits, but not of more than fit, that writes a number. -/
structure Writes (width n : Nat) (digits : List Char) : Prop where
  nonempty : digits ≠ []
  isDigit : ∀ c ∈ digits, c.isDigit = true
  length_le : digits.length ≤ width
  value : Nat.ofDigitChars 10 digits 0 = n

/-- A text that does not go on with the digits of a number. -/
def NumberEnds (rest : List Char) : Prop := ∀ c ∈ rest.head?, c.isDigit = false

theorem numberEnds_nil : NumberEnds [] := nofun

theorem numberEnds_cons {c : Char} (h : c.isDigit = false) (rest : List Char) :
    NumberEnds (c :: rest) := fun _ hd => Option.some.inj hd ▸ h

theorem digit?_of_isDigit {c : Char} (h : c.isDigit = true) :
    Number.digit? c = some (c.toNat - '0'.toNat) := by
  simp only [Char.isDigit, Bool.and_eq_true, decide_eq_true_eq] at h
  exact if_pos h

theorem digit?_of_not_isDigit {c : Char} (h : c.isDigit = false) : Number.digit? c = none := by
  simp only [Char.isDigit, Bool.and_eq_false_imp, decide_eq_true_eq, decide_eq_false_iff_not] at h
  exact if_neg fun hc => h hc.1 hc.2

theorem toNat_of_isDigit {c : Char} (h : c.isDigit = true) : 48 ≤ c.toNat ∧ c.toNat ≤ 57 := by
  simp only [Char.isDigit, Bool.and_eq_true, decide_eq_true_eq, ge_iff_le,
    UInt32.le_iff_toNat_le] at h
  exact h

theorem isBlank_of_isDigit {c : Char} (h : c.isDigit = true) : isBlank c = false := by
  have bounds := toNat_of_isDigit h
  simp only [isBlank, Bool.or_eq_false_iff, Bool.and_eq_false_imp, decide_eq_true_eq,
    decide_eq_false_iff_not, beq_eq_false_iff_ne]
  omega

theorem foldl_digit? {digits : List Char} (h : ∀ c ∈ digits, c.isDigit = true) (n : Nat) :
    digits.foldl (fun n c => 10 * n + (Number.digit? c).getD 0) n =
      Nat.ofDigitChars 10 digits n := by
  induction digits generalizing n with
  | nil => rfl
  | cons c digits ih =>
    rw [List.forall_mem_cons] at h
    rw [List.foldl_cons, digit?_of_isDigit h.1, Option.getD_some, ih h.2, Nat.ofDigitChars_cons]

theorem readNumber_append {width n : Nat} {digits rest : List Char} (h : Writes width n digits)
    (hr : NumberEnds rest) :
    readNumber width (digits ++ rest) = some (n, rest) := by
  have read : ∀ c ∈ digits, (Number.digit? c).isSome = true := fun c hc => by
    rw [digit?_of_isDigit (h.isDigit c hc)]
    rfl
  have stops : (rest.take (width - digits.length)).takeWhile
      (fun c => (Number.digit? c).isSome) = [] := by
    cases rest with
    | nil => simp
    | cons c rest =>
      cases width - digits.length with
      | zero => rfl
      | succ k =>
        rw [List.take_succ_cons, List.takeWhile_cons, digit?_of_not_isDigit (hr c rfl)]
        rfl
  have taken : ((digits ++ rest).take width).takeWhile (fun c => (Number.digit? c).isSome) =
      digits := by
    rw [List.take_append, List.take_of_length_le h.length_le, List.takeWhile_append_of_pos read,
      stops, List.append_nil]
  simp only [readNumber, taken, List.isEmpty_eq_false_iff.mpr h.nonempty, Bool.false_eq_true,
    if_false, foldl_digit? h.isDigit, h.value, List.drop_left]

theorem toList_padded (width n : Nat) : (padded width n).toList =
    List.replicate (width - (Number.natDigits n).length) '0' ++ Number.natDigits n :=
  String.toList_ofList

theorem padded_ne_nil (width n : Nat) : (padded width n).toList ≠ [] := by
  rw [toList_padded]
  exact List.append_ne_nil_of_right_ne_nil _ Nat.toDigits_ne_nil

theorem isDigit_of_mem_padded {width n : Nat} : ∀ c ∈ (padded width n).toList,
    c.isDigit = true := by
  intro c hc
  rw [toList_padded] at hc
  rcases List.mem_append.mp hc with hc | hc
  · rw [List.eq_of_mem_replicate hc]
    decide
  · exact Nat.isDigit_of_mem_toDigits (by decide) (by decide) hc

theorem ofDigitChars_zeros (k : Nat) (digits : List Char) :
    Nat.ofDigitChars 10 (List.replicate k '0' ++ digits) 0 = Nat.ofDigitChars 10 digits 0 := by
  induction k with
  | zero => rfl
  | succ k ih =>
    rw [List.replicate_succ, List.cons_append, Nat.ofDigitChars_cons]
    exact ih

/-- Zeros before a number, up to a width, do not change it. -/
theorem writes_padded {width wide n : Nat} (hw : width ≤ wide) (hpos : 0 < wide)
    (hn : n < 10 ^ wide) : Writes wide n (padded width n).toList := by
  have short : (Number.natDigits n).length ≤ wide :=
    (Nat.length_toDigits_le_iff (by decide) hpos).mpr hn
  refine ⟨padded_ne_nil width n, isDigit_of_mem_padded, ?_, ?_⟩
  · rw [toList_padded, List.length_append, List.length_replicate]
    omega
  · rw [toList_padded, ofDigitChars_zeros]
    exact Nat.ofDigitChars_ten_toDigits

/-! ## Fields -/

/-- How many digits a field takes. -/
def Field.width : Field → Nat
  | .year => 4
  | _ => 2

/-- What has been read once a field has taken a number, if the number is in its range. -/
def Field.put? (p : Parts) (n : Nat) : Field → Option Parts
  | .year => some { p with year := some n }
  | .yearOfCentury =>
    if n ≤ 99 then some { p with year := some (if n < 70 then 2000 + n else 1900 + n) } else none
  | .month => if 1 ≤ n ∧ n ≤ 12 then some { p with month := some n } else none
  | .day => if 1 ≤ n ∧ n ≤ 31 then some { p with day := some n } else none
  | .hour =>
    if n ≤ 23 then some { p with afternoon := some (12 ≤ n), hourOfHalf := some (n % 12) } else none
  | .hourOfHalf => if 1 ≤ n ∧ n ≤ 12 then some { p with hourOfHalf := some (n % 12) } else none
  | .minute => if n ≤ 59 then some { p with minute := some n } else none
  | .second => if n ≤ 60 then some { p with second := some n } else none

section
variable {p : Parts} {f : Field} {n : Nat} {digits rest : List Char}

theorem readInRange_append {least greatest : Nat} (h : Writes 2 n digits)
    (hr : NumberEnds rest) :
    readInRange least greatest (digits ++ rest) =
      if least ≤ n ∧ n ≤ greatest then some (n, rest) else none := by
  rw [readInRange, readNumber_append h hr, Option.bind_some]

theorem readYear_append (h : Writes 4 n digits) (hr : NumberEnds rest) :
    readYear (digits ++ rest) = some (Int.ofNat n, rest) := by
  have read := readNumber_append h hr
  obtain ⟨c, digits, rfl⟩ := List.exists_cons_of_ne_nil h.nonempty
  have signless : c ≠ '-' ∧ c ≠ '+' := by
    have := h.isDigit c List.mem_cons_self
    constructor <;> rintro rfl <;> exact absurd this (by decide)
  unfold readYear
  split
  · next e => exact absurd (List.cons.inj e).1 signless.1
  · next e => exact absurd (List.cons.inj e).1 signless.2
  · rw [read]
    rfl

theorem readItem_number (h : Writes f.width n digits) (hr : NumberEnds rest) :
    readItem p (digits ++ rest) (.number f) = (f.put? p n).map fun p => (p, rest) := by
  have start : trimStart (digits ++ rest) = digits ++ rest := by
    obtain ⟨c, digits, rfl⟩ := List.exists_cons_of_ne_nil h.nonempty
    exact trimStart_cons (isBlank_of_isDigit (h.isDigit c List.mem_cons_self)) _
  rw [readItem, start]
  cases f with
  | year =>
    rw [readField, readYear_append h hr]
    rfl
  | _ =>
    rw [readField, readInRange_append h hr, Field.put?]
    simp only [Nat.zero_le, true_and]
    split <;> rfl

/-- No field takes a dot. -/
theorem readItem_number_dot : readItem p ('.' :: rest) (.number f) = none := by
  cases f <;> rfl

end

/-! ## Items of a layout -/

/-- Whether a text starts with a digit. -/
def StartsDigit (s : List Char) : Prop := ∃ c r, s = c :: r ∧ c.isDigit = true

theorem startsDigit_append {digits : List Char} (hne : digits ≠ [])
    (h : ∀ c ∈ digits, c.isDigit = true) (rest : List Char) : StartsDigit (digits ++ rest) := by
  obtain ⟨c, digits, rfl⟩ := List.exists_cons_of_ne_nil hne
  exact ⟨c, digits ++ rest, rfl, h c List.mem_cons_self⟩

theorem Writes.startsDigit {width n : Nat} {digits : List Char} (h : Writes width n digits)
    (rest : List Char) : StartsDigit (digits ++ rest) :=
  startsDigit_append h.nonempty h.isDigit rest

section
variable {p : Parts} {f : Field} {n : Nat} {digits s : List Char} {layout : Layout}

theorem readItems_number (h : Writes f.width n digits) {rest : List Char}
    (hr : NumberEnds rest) :
    readItems p (digits ++ rest) (.number f :: layout) =
      (f.put? p n).bind fun p => readItems p rest layout := by
  rw [readItems, readItem_number h hr]
  cases f.put? p n <;> rfl

theorem readItems_blank (h : StartsDigit s) :
    readItems p (' ' :: s) (.blank :: layout) = readItems p s layout := by
  obtain ⟨c, r, rfl, hc⟩ := h
  have start : trimStart (' ' :: c :: r) = c :: r :=
    trimStart_cons (isBlank_of_isDigit hc) r
  rw [readItems, readItem, start]
  rfl

theorem readItems_dot (s : List Char) :
    readItems p ('.' :: s) (.fixed ['.'] :: layout) = readItems p s layout := by
  cases s <;> rfl

theorem readItems_number_dot (s : List Char) :
    readItems p ('.' :: s) (.number f :: layout) = none := by
  rw [readItems, readItem_number_dot]
  rfl

end

/-! ## Dates -/

/-- What a layout reads of a text that a time of day follows; `none` if it refuses the text. -/
structure ReadsAs (date : Layout) (text : List Char) (found : Parts → Option Parts) : Prop where
  starts : ∀ rest, StartsDigit rest → StartsDigit (text ++ rest)
  reads : ∀ p rest layout, StartsDigit rest →
    readItems p (text ++ rest) (date ++ layout) = (found p).bind fun p => readItems p rest layout

namespace ReadsAs

theorem nil : ReadsAs [] [] some := ⟨fun _ h => h, fun _ _ _ _ => rfl⟩

section
variable {f : Field} {n : Nat} {digits text : List Char} {date : Layout}
  {found : Parts → Option Parts}

theorem field (h : Writes f.width n digits) (more : ReadsAs date text found) :
    ReadsAs (.number f :: .blank :: date) (digits ++ ' ' :: text)
      fun p => (f.put? p n).bind found := by
  refine ⟨fun rest _ => ?_, fun p rest layout hrest => ?_⟩
  · rw [List.append_assoc]
    exact h.startsDigit _
  · simp only [List.append_assoc, List.cons_append]
    rw [readItems_number h (numberEnds_cons (by decide) _), Option.bind_assoc]
    refine congrArg (Option.bind _) (funext fun p => ?_)
    rw [readItems_blank (more.starts rest hrest)]
    exact more.reads p rest layout hrest

theorem dotted (h : Writes f.width n digits) (more : ReadsAs date text found) :
    ReadsAs (.number f :: .fixed ['.'] :: .blank :: date) (digits ++ '.' :: ' ' :: text)
      fun p => (f.put? p n).bind found := by
  refine ⟨fun rest _ => ?_, fun p rest layout hrest => ?_⟩
  · rw [List.append_assoc]
    exact h.startsDigit _
  · simp only [List.append_assoc, List.cons_append]
    rw [readItems_number h (numberEnds_cons (by decide) _), Option.bind_assoc]
    refine congrArg (Option.bind _) (funext fun p => ?_)
    rw [readItems_dot, readItems_blank (more.starts rest hrest)]
    exact more.reads p rest layout hrest

theorem refused {g : Field} (h : Writes f.width n digits) (date : Layout) (text : List Char) :
    ReadsAs (.number f :: .blank :: .number g :: date) (digits ++ '.' :: text) fun _ => none := by
  refine ⟨fun rest _ => ?_, fun p rest layout _ => ?_⟩
  · rw [List.append_assoc]
    exact h.startsDigit _
  · simp only [List.append_assoc, List.cons_append]
    rw [readItems_number h (numberEnds_cons (by decide) _)]
    have stuck (q : Parts) : readItems q ('.' :: (text ++ rest))
        (.blank :: .number g :: (date ++ layout)) = none := readItems_number_dot _
    simp only [stuck, Option.bind_none, Option.bind_fun_none]

end

end ReadsAs

/-! ## Times of day -/

/-- A time of day with dots, its hour as the clock shows it. -/
def dottedClock (hour minute second : Nat) : List Char :=
  (padded 1 hour).toList ++ '.' :: ((padded 2 minute).toList ++ '.' :: (padded 2 second).toList)

/-- A time of day on the clock of twenty-four hours. -/
def Parts.atHour (p : Parts) (hour minute second : Nat) : Parts :=
  { p with afternoon := some (12 ≤ hour), hourOfHalf := some (hour % 12), minute := some minute,
           second := some second }

/-- A time of day on the clock of twelve hours. -/
def Parts.atHourOf (p : Parts) (afternoon : Bool) (hour minute second : Nat) : Parts :=
  { p with afternoon := some afternoon, hourOfHalf := some (hour % 12), minute := some minute,
           second := some second }

/-- How the halves of the day are marked. -/
def halfSign (afternoon : Bool) : List Char := if afternoon then " PM".toList else " AM".toList

section
variable {hour minute second : Nat}

theorem startsDigit_dottedClock (hour minute second : Nat) (rest : List Char) :
    StartsDigit (dottedClock hour minute second ++ rest) := by
  rw [dottedClock, List.append_assoc]
  exact startsDigit_append (padded_ne_nil 1 hour) isDigit_of_mem_padded _

/-- A clock takes the hour by its first field. -/
theorem readItems_clock {p : Parts} {f : Field} (hf : f.width = 2) (hh : hour < 100)
    (hm : minute < 60) (hs : second < 60) {rest : List Char} (hr : NumberEnds rest)
    (layout : Layout) :
    readItems p (dottedClock hour minute second ++ rest)
        (.number f :: .fixed ['.'] :: .number .minute :: .fixed ['.'] :: .number .second :: layout) =
      (f.put? p hour).bind fun p =>
        readItems { p with minute := some minute, second := some second } rest layout := by
  have hour_digits : Writes f.width hour (padded 1 hour).toList := by
    rw [hf]
    exact writes_padded (by decide) (by decide) (by omega)
  have minute_digits : Writes Field.minute.width minute (padded 2 minute).toList :=
    writes_padded (by decide) (by decide) (show minute < 100 by omega)
  have second_digits : Writes Field.second.width second (padded 2 second).toList :=
    writes_padded (by decide) (by decide) (show second < 100 by omega)
  simp only [dottedClock, List.append_assoc, List.cons_append]
  rw [readItems_number hour_digits (numberEnds_cons (by decide) _)]
  refine congrArg (Option.bind _) (funext fun p => ?_)
  rw [readItems_dot, readItems_number minute_digits (numberEnds_cons (by decide) _), Field.put?,
    if_pos (by omega), Option.bind_some, readItems_dot, readItems_number second_digits hr,
    Field.put?, if_pos (by omega), Option.bind_some]

theorem readItems_hours (p : Parts) (hh : hour < 24) (hm : minute < 60) (hs : second < 60)
    {rest : List Char} (hr : NumberEnds rest) :
    readItems p (dottedClock hour minute second ++ rest) dottedHours =
      some (p.atHour hour minute second, rest) := by
  rw [dottedHours, readItems_clock rfl (by omega) hm hs hr, Field.put?, if_pos (by omega)]
  rfl

theorem readItems_halves (p : Parts) (hh : 1 ≤ hour ∧ hour ≤ 12) (hm : minute < 60)
    (hs : second < 60) (afternoon : Bool) :
    readItems p (dottedClock hour minute second ++ halfSign afternoon) dottedHalves =
      some (p.atHourOf afternoon hour minute second, []) := by
  have ends : NumberEnds (halfSign afternoon) := by cases afternoon <;> exact numberEnds_cons rfl _
  rw [dottedHalves, readItems_clock rfl (by omega) hm hs ends, Field.put?, if_pos hh]
  cases afternoon <;> rfl

theorem readItems_halves_unmarked (p : Parts) (hh : hour < 24) (hm : minute < 60)
    (hs : second < 60) :
    readItems p (dottedClock hour minute second) dottedHalves = none := by
  have read := readItems_clock (f := .hourOfHalf) rfl (show hour < 100 by omega) hm hs
    numberEnds_nil [.blank, .halfOfDay] (p := p)
  rw [List.append_nil] at read
  rw [dottedHalves, read]
  have stuck (q : Parts) : readItems q [] [.blank, .halfOfDay] = none := rfl
  simp only [stuck, Option.bind_fun_none]

/-! ## Dates with times of day -/

theorem ReadsAs.hours {date : Layout} {text : List Char} {found : Parts → Option Parts}
    (h : ReadsAs date text found) (hh : hour < 24) (hm : minute < 60) (hs : second < 60) :
    (withTimes date).findSome? (·.read (text ++ dottedClock hour minute second)) =
      (found {}).bind fun p => (p.atHour hour minute second).toCivil? := by
  have start : StartsDigit (dottedClock hour minute second) := by
    have := startsDigit_dottedClock hour minute second []
    rwa [List.append_nil] at this
  have halves := h.reads {} _ dottedHalves start
  have hours := h.reads {} _ dottedHours start
  simp only [readItems_halves_unmarked _ hh hm hs, Option.bind_fun_none] at halves
  have read (p : Parts) := readItems_hours p hh hm hs numberEnds_nil
  simp only [List.append_nil] at read
  simp only [read] at hours
  simp only [withTimes, List.findSome?_cons, List.findSome?_nil, Layout.read, halves, hours]
  cases found {} with
  | none => rfl
  | some p =>
    simp only [Option.bind_some]
    cases (p.atHour hour minute second).toCivil? <;> rfl

theorem ReadsAs.halves {date : Layout} {text : List Char} {found : Parts → Option Parts}
    (h : ReadsAs date text found) (hh : 1 ≤ hour ∧ hour ≤ 12) (hm : minute < 60) (hs : second < 60)
    (afternoon : Bool) :
    (withTimes date).findSome?
        (·.read (text ++ (dottedClock hour minute second ++ halfSign afternoon))) =
      (found {}).bind fun p => (p.atHourOf afternoon hour minute second).toCivil? := by
  have start := startsDigit_dottedClock hour minute second (halfSign afternoon)
  have halves := h.reads {} _ dottedHalves start
  have hours := h.reads {} _ dottedHours start
  have ends : NumberEnds (halfSign afternoon) := by cases afternoon <;> exact numberEnds_cons rfl _
  simp only [readItems_halves _ hh hm hs] at halves
  simp only [readItems_hours _ (show hour < 24 by omega) hm hs ends] at hours
  -- What marks the half of the day is left over by the other layout.
  have left : halfSign afternoon ≠ [] := by cases afternoon <;> exact List.cons_ne_nil _ _
  obtain ⟨c, sign, e⟩ := List.exists_cons_of_ne_nil left
  rw [e] at halves hours ⊢
  simp only [withTimes, List.findSome?_cons, List.findSome?_nil, Layout.read, halves, hours]
  cases found {} with
  | none => rfl
  | some p =>
    simp only [Option.bind_some]
    cases (p.atHourOf afternoon hour minute second).toCivil? <;> rfl

end

end ScriptBridge.Calendar
