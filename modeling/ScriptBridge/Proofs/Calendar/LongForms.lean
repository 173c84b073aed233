import ScriptBridge.Proofs.Calendar.Units
/-!
Dates in their long form, such as `Saturday, March 2, 2024 at 3:04:05 PM`.

The names of a language are written out here, apart from the symbols that its dates are read with.
What they have to be for a long form to be taken apart is `Fits`, a check that the kernel runs on
the names: the name of each month is the longest that is found in it, none is found in the name of a
weekday, and all have a letter that is in none of the other words. So the month becomes its number
(`Fits.replaceMonth_eq`), no marker is found but the one that stands there, and a long form comes to
its numbers with or without a marker at its end (`Fits.comesTo`).
-/
namespace ScriptBridge.Calendar

open Text

/-! ## Words -/

/-- The names of the months and of the weekdays in a language. -/
structure Names where
  months : List String
  weekdays : List String

/-- The name of a month by its number. -/
def Names.month (names : Names) (n : Nat) : String := names.months.getD (n - 1) ""

/-- Whether a character is a digit, or a mark between the words and numbers of a date. -/
def isMark (c : Char) : Bool := c.isDigit || c == ' ' || c == ',' || c == '.' || c == ':'

/-- A text of digits, marks and some letters. -/
def Mixes (letters s : List Char) : Prop := ∀ c ∈ s, isMark c = true ∨ c ∈ letters

instance (letters s : List Char) : Decidable (Mixes letters s) :=
  inferInstanceAs (Decidable (∀ c ∈ s, isMark c = true ∨ c ∈ letters))

section
variable {letters s s' : List Char}

theorem Mixes.append (h : Mixes letters s) (h' : Mixes letters s') : Mixes letters (s ++ s') :=
  fun c hc => (List.mem_append.mp hc).elim (h c) (h' c)

theorem Mixes.cons {c : Char} (hc : isMark c = true) (h : Mixes letters s) : Mixes letters (c :: s) :=
  List.forall_mem_cons.mpr ⟨.inl hc, h⟩

theorem Mixes.mono {more : List Char} (h : Mixes letters s) (sub : letters ⊆ more) : Mixes more s :=
  fun c hc => (h c hc).imp_right fun hl => sub hl

theorem mixes_of_isMark (h : ∀ c ∈ s, isMark c = true) : Mixes letters s := fun c hc => .inl (h c hc)

theorem isMark_of_isDigit {c : Char} (h : c.isDigit = true) : isMark c = true := by
  simp [isMark, h]

theorem mixes_padded (width n : Nat) : Mixes letters (padded width n).toList :=
  mixes_of_isMark fun c hc => isMark_of_isDigit (isDigit_of_mem_padded c hc)

theorem mixes_clockText (hour minute second : Nat) :
    Mixes letters (clockText hour minute second).toList := by
  have colon : Mixes letters [':'] := mixes_of_isMark (by decide)
  rw [toList_clockText]
  exact (mixes_padded 1 hour).append ((colon.append (mixes_padded 2 minute)).append
    (colon.append (mixes_padded 2 second)))

theorem Mixes.notMem {c : Char} (h : Mixes letters s) (mark : isMark c = false)
    (letter : c ∉ letters) : c ∉ s := fun hc => by
  obtain is | is := h c hc
  · rw [mark] at is
    cases is
  · exact letter is

/-- A piece with a letter of its own is not found. -/
theorem Mixes.contains_eq_false {piece : List Char} (h : Mixes letters s)
    (own : ∃ c ∈ piece, isMark c = false ∧ c ∉ letters) : contains s piece = false := by
  obtain ⟨c, hc, mark, letter⟩ := own
  exact Text.contains_eq_false hc (h.notMem mark letter)

end

/-- What the words of a language have to be for its long form to be taken apart, if beside names and
markers there are only some letters in it. -/
structure Fits (symbols : Symbols) (names : Names) (letters : List Char) : Prop where
  listed : ∀ n < 13, 1 ≤ n → (names.month n).toList ∈ symbols.months.map String.toList
  /-- The name of a month is the longest in itself. -/
  longest : ∀ n < 13, 1 ≤ n →
    longestName? (names.month n).toList (symbols.months.map String.toList) =
      some (n, (names.month n).toList)
  bare : ∀ name ∈ symbols.months.map String.toList, name ≠ [] ∧ ∀ c ∈ name, isMark c = false
  /-- The name of a month has a letter of its own. -/
  own : ∀ name ∈ symbols.months.map String.toList, ∃ c ∈ name,
    c ∉ letters ∧ ∀ afternoon, c ∉ symbols.marker afternoon
  elsewhere : ∀ name ∈ symbols.months.map String.toList, ∀ weekday ∈ names.weekdays,
    contains weekday.toList name = false
  gaps : ∀ weekday ∈ names.weekdays, IsGap weekday.toList
  /-- A marker has a letter of its own. -/
  marked : ∀ afternoon, ∃ c ∈ symbols.marker afternoon, isMark c = false ∧ c ∉ letters
  joined : ∀ afternoon, ' ' ∉ symbols.marker afternoon ∧ ',' ∉ symbols.marker afternoon
  unmarked : ∀ afternoon, ∀ weekday ∈ names.weekdays,
    contains weekday.toList (symbols.marker afternoon) = false
  /-- The markers are told apart. -/
  apart : ∀ afternoon, contains (symbols.marker afternoon) (symbols.marker !afternoon) = false

/-- A text is made universal as some numbers, and with a marker at its end as those numbers with the
sign of the marker. -/
structure ComesTo (symbols : Symbols) (text numbers : List Char) : Prop where
  plain : universal symbols text = numbers
  signed : text.getLast? = some ' ' → ∀ afternoon,
    universal symbols (text ++ symbols.marker afternoon) = numbers ++ halfSign afternoon

/-- What stands between a weekday and a month: numbers and marks. -/
structure IsMiddle (mid : List Char) : Prop where
  first : mid.head? = some ' ' ∨ mid.head? = some ','
  marks : ∀ c ∈ mid, isMark c = true

theorem IsMiddle.ne_nil {mid : List Char} (h : IsMiddle mid) : mid ≠ [] := by
  rintro rfl
  obtain e | e := h.first <;> cases e

namespace Fits
variable {symbols : Symbols} {names : Names} {letters : List Char} (h : Fits symbols names letters)
include h

theorem marker_ne_nil (afternoon : Bool) : symbols.marker afternoon ≠ [] := by
  obtain ⟨c, hc, -⟩ := h.marked afternoon
  exact List.ne_nil_of_mem hc

variable {weekday : String} (hw : weekday ∈ names.weekdays) {mid after : List Char} {n : Nat}
  (hm : IsMiddle mid)
include hw hm

/-- The name of a month does not occur but where it stands for the month. -/
theorem onlyWithin (head : after.head? = some ' ')
    (ha : ∀ c ∈ after, isMark c = true ∨ c ∈ letters ∨ ∃ afternoon, c ∈ symbols.marker afternoon) :
    ∀ name ∈ symbols.months.map String.toList,
      OnlyWithin name (weekday.toList ++ mid) (names.month n).toList after := by
  intro name hname
  obtain ⟨nonempty, bare⟩ := h.bare name hname
  obtain ⟨c, hc, letter, markers⟩ := h.own name hname
  have unmarked {d : Char} (hd : isMark d = true) : d ∉ name := fun hm => by
    rw [bare d hm] at hd
    cases hd
  refine ⟨nonempty, ?_, ?_, ?_, ?_⟩
  · have start : Apart name weekday.toList mid :=
      Apart.of_head fun d hd => unmarked (hm.marks d (List.mem_of_head? hd))
    have none : contains mid name = false :=
      contains_eq_false hc fun found => unmarked (hm.marks c found) hc
    rw [contains_append start nonempty, h.elsewhere name hname weekday hw, none, Bool.or_false]
  · refine contains_eq_false hc fun hs => ?_
    obtain is | is | ⟨afternoon, is⟩ := ha c hs
    · exact unmarked is hc
    · exact letter is
    · exact markers afternoon is
  · refine Apart.of_last fun d hd => unmarked ?_
    rw [List.getLast?_append_of_ne_nil _ hm.ne_nil] at hd
    exact hm.marks d (List.mem_of_getLast? hd)
  · refine Apart.of_head fun d hd => unmarked ?_
    rw [head] at hd
    cases hd
    decide

theorem replaceMonth_eq (hn : 1 ≤ n ∧ n ≤ 12) (head : after.head? = some ' ')
    (ha : ∀ c ∈ after, isMark c = true ∨ c ∈ letters ∨ ∃ afternoon, c ∈ symbols.marker afternoon) :
    replaceMonth symbols (weekday.toList ++ mid ++ ((names.month n).toList ++ after)) =
      weekday.toList ++ mid ++ (Number.natDigits n ++ ' ' :: after) :=
  replaceMonth_between (h.longest n (by omega) hn.1) (h.listed n (by omega) hn.1)
    (h.onlyWithin hw hm head ha)

/-- With the month as a number no marker is found in a text without one. -/
theorem contains_marker (ha : Mixes letters after) (afternoon : Bool) :
    contains (weekday.toList ++ mid ++ (Number.natDigits n ++ ' ' :: after))
      (symbols.marker afternoon) = false := by
  have joined := h.joined afternoon
  have digits : Mixes letters (Number.natDigits n) := mixes_of_isMark fun c hc =>
    isMark_of_isDigit (Nat.isDigit_of_mem_toDigits (by decide) (by decide) hc)
  have rest : Mixes letters (mid ++ (Number.natDigits n ++ ' ' :: after)) :=
    (mixes_of_isMark hm.marks).append (digits.append (.cons (by decide) ha))
  have start : Apart (symbols.marker afternoon) weekday.toList
      (mid ++ (Number.natDigits n ++ ' ' :: after)) := by
    refine Apart.of_head fun c hc => ?_
    rw [List.head?_append_of_ne_nil _ hm.ne_nil] at hc
    obtain e | e := hm.first <;> rw [e] at hc <;> cases hc
    · exact joined.1
    · exact joined.2
  rw [List.append_assoc, contains_append start (h.marker_ne_nil afternoon),
    h.unmarked afternoon weekday hw, rest.contains_eq_false (h.marked afternoon), Bool.or_false]

section
variable {s : List Char} (hn : 1 ≤ n ∧ n ≤ 12) (head : after.head? = some ' ')
  (ha : Mixes letters after)
  (numbers : settled (weekday.toList ++ mid ++ (Number.natDigits n ++ ' ' :: after)) = s)
  (tight : Tight s)
include hn head ha numbers tight

theorem universal_plain :
    universal symbols (weekday.toList ++ mid ++ ((names.month n).toList ++ after)) = s := by
  have month := h.replaceMonth_eq hw hm hn head fun c hc => (ha c hc).imp_right .inl
  exact universal_unmarked month (h.contains_marker hw hm ha) numbers tight

theorem universal_signed (last : after.getLast? = some ' ') (afternoon : Bool) :
    universal symbols (weekday.toList ++ mid ++ ((names.month n).toList ++
      (after ++ symbols.marker afternoon))) = s ++ halfSign afternoon := by
  have filled : after ≠ [] := by
    rintro rfl
    cases head
  have start : (after ++ symbols.marker afternoon).head? = some ' ' := by
    rw [List.head?_append_of_ne_nil _ filled, head]
  have month := h.replaceMonth_eq hw hm hn start fun c hc => (List.mem_append.mp hc).elim
    (fun is => (ha c is).imp_right .inl) fun is => .inr (.inr ⟨afternoon, is⟩)
  have placed : weekday.toList ++ mid ++ (Number.natDigits n ++
      ' ' :: (after ++ symbols.marker afternoon)) =
      weekday.toList ++ mid ++ (Number.natDigits n ++ ' ' :: after) ++ symbols.marker afternoon := by
    simp
  rw [placed] at month
  refine universal_marked_last month h.marker_ne_nil (h.contains_marker hw hm ha)
    (fun half c hc => ?_) (h.apart afternoon) numbers tight
  rw [List.getLast?_append_of_ne_nil _ (by simp), List.getLast?_append_of_ne_nil _ (by simp),
    List.getLast?_cons, last] at hc
  cases hc
  exact (h.joined half).1

theorem comesTo :
    ComesTo symbols (weekday.toList ++ mid ++ ((names.month n).toList ++ after)) s := by
  have filled : after ≠ [] := by
    rintro rfl
    cases head
  refine ⟨h.universal_plain hw hm hn head ha numbers tight, fun last afternoon => ?_⟩
  rw [List.getLast?_append_of_ne_nil _ (by simp [filled]),
    List.getLast?_append_of_ne_nil _ filled] at last
  rw [List.append_assoc, List.append_assoc (names.month n).toList]
  exact h.universal_signed hw hm hn head ha numbers tight last afternoon

end

end Fits

end ScriptBridge.Calendar
