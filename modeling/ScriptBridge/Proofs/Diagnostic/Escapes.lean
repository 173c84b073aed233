import Mathlib.Data.Nat.Digits.Defs
import ScriptBridge.Diagnostic
import ScriptBridge.Proofs.Text.Bytes
/-!
Escapes in diagnostics are replaced in one pass from the left.

`OnePass` is what a reader does that goes over a text once: it takes an escape of six characters
where one stands that names a character, and a single character anywhere else. It is a relation
between texts, so that nothing is said in it of marks that are looked for, of bytes, or of going back.
`unescape` looks for marks, cuts by bytes and goes on after what it found, and yet does exactly the
same (`unescape_eq_iff`).
-/
namespace ScriptBridge

/-! ## Hexadecimal numbers -/

namespace Hex

theorem foldlM_digit? (digits : List Char) (n m : Nat) :
    digits.foldlM (fun n c => (digit? c).map (16 * n + ·)) n = some m ↔
      ∃ values : List Nat, digits.map digit? = values.map some ∧ values.foldl (16 * · + ·) n = m := by
  induction digits generalizing n with
  | nil => simp
  | cons c digits ih =>
    rw [List.foldlM_cons, Option.bind_eq_bind, Option.bind_eq_some_iff]
    simp only [Option.map_eq_some_iff, ih]
    constructor
    · rintro ⟨_, ⟨v, first, rfl⟩, values, rest, e⟩
      exact ⟨v :: values, by rw [List.map_cons, List.map_cons, first, rest], e⟩
    · rintro ⟨values, each, e⟩
      cases values with
      | nil => cases each
      | cons v values =>
        rw [List.map_cons, List.map_cons, List.cons.injEq] at each
        exact ⟨_, ⟨v, each.1, rfl⟩, values, each.2, e⟩

theorem number?_eq_some_iff {digits : List Char} {n : Nat} :
    number? digits = some n ↔
      ∃ values : List Nat, digits.map digit? = values.map some ∧ Nat.ofDigits 16 values.reverse = n := by
  have horner (values : List Nat) :
      Nat.ofDigits 16 values.reverse = values.foldl (16 * · + ·) 0 := by
    rw [Nat.ofDigits_eq_foldr, List.foldr_reverse]
    simp only [Nat.cast_id, Nat.add_comm]
  simp only [number?, foldlM_digit?, horner]

theorem utf8Size_of_digit? {c : Char} {v : Nat} (h : digit? c = some v) : c.utf8Size = 1 := by
  have small (last : Char) (range : c ≤ last) (ascii : last.toNat ≤ 127) : c.utf8Size = 1 := by
    rw [Char.utf8Size_eq_one_iff, UInt32.le_iff_toNat_le]
    exact Nat.le_trans range ascii
  unfold digit? at h
  split at h
  · next range => exact small '9' range.2 (by decide)
  · split at h
    · next range => exact small 'f' range.2 (by decide)
    · split at h
      · next range => exact small 'F' range.2 (by decide)
      · cases h

end Hex

namespace Diagnostic

open Text

/-- Four hexadecimal digits, in either case, and the number they write. -/
structure Writes (digits : List Char) (n : Nat) : Prop where
  four : digits.length = 4
  number : ∃ values : List Nat, digits.map Hex.digit? = values.map some ∧
    Nat.ofDigits 16 values.reverse = n

/-- Whether a text starts with an escape that names a character. Surrogates are no characters, so
that no escape names one. -/
def StartsEscape (text : List Char) : Prop :=
  ∃ (digits : List Char) (char : Char) (rest : List Char),
    Writes digits char.toNat ∧ text = mark ++ digits ++ rest

/-- A text that is read once from the left, and what is written for it. -/
inductive OnePass : List Char → List Char → Prop
  | done : OnePass [] []
  | escape {digits : List Char} {char : Char} {rest out : List Char}
      (names : Writes digits char.toNat) (more : OnePass rest out) :
      OnePass (mark ++ digits ++ rest) (char :: out)
  | single {c : Char} {rest out : List Char} (plain : ¬StartsEscape (c :: rest))
      (more : OnePass rest out) : OnePass (c :: rest) (c :: out)

/-! ## Escapes -/

theorem mark_eq : mark = ['\\', 'U'] := rfl

theorem scalar?_eq_some_iff {n : Nat} {char : Char} : scalar? n = some char ↔ char.toNat = n := by
  unfold scalar?
  constructor
  · intro h
    split at h
    · next valid =>
      cases h
      rw [Char.ofNat, dif_pos valid]
      rfl
    · cases h
  · rintro rfl
    rw [if_pos (show char.toNat.isValidChar from char.valid), Char.ofNat_toNat]

namespace Writes

variable {digits : List Char} {n : Nat}

theorem number?_eq (h : Writes digits n) : Hex.number? digits = some n :=
  Hex.number?_eq_some_iff.mpr h.number

theorem unique {m : Nat} (h : Writes digits n) (h' : Writes digits m) : n = m :=
  Option.some.inj (h.number?_eq.symm.trans h'.number?_eq)

end Writes

theorem exists_digit_of_number? {digits : List Char} {n : Nat} (h : Hex.number? digits = some n) :
    ∀ c ∈ digits, ∃ v, Hex.digit? c = some v := by
  obtain ⟨values, each, -⟩ := Hex.number?_eq_some_iff.mp h
  intro c inside
  have valued : Hex.digit? c ∈ values.map some := each ▸ List.mem_map_of_mem inside
  obtain ⟨v, -, e⟩ := List.mem_map.mp valued
  exact ⟨v, e.symm⟩

theorem sum_utf8Size_of_number? {digits : List Char} {n : Nat} (h : Hex.number? digits = some n) :
    (digits.map Char.utf8Size).sum = digits.length := by
  have ones : digits.map Char.utf8Size = List.replicate digits.length 1 := by
    rw [List.eq_replicate_iff, List.length_map, List.forall_mem_map]
    refine ⟨rfl, fun c inside => ?_⟩
    obtain ⟨v, e⟩ := exists_digit_of_number? h c inside
    exact Hex.utf8Size_of_digit? e
  rw [ones, List.sum_replicate_nat, Nat.mul_one]

theorem escaped?_eq_some_iff {candidate rest : List Char} {char : Char} :
    escaped? candidate = some (char, rest) ↔
      ∃ digits, Writes digits char.toNat ∧ candidate = digits ++ rest := by
  simp only [escaped?, Option.bind_eq_some_iff, Option.map_eq_some_iff, Prod.exists,
    firstBytes?_eq_some_iff, Prod.mk.injEq]
  constructor
  · rintro ⟨digits, _, ⟨rfl, four⟩, _, ⟨n, number, named⟩, rfl, rfl⟩
    rw [scalar?_eq_some_iff] at named
    subst named
    rw [sum_utf8Size_of_number? number] at four
    exact ⟨digits, ⟨four, Hex.number?_eq_some_iff.mp number⟩, rfl⟩
  · rintro ⟨digits, names, rfl⟩
    have number := names.number?_eq
    exact ⟨digits, rest, ⟨rfl, (sum_utf8Size_of_number? number).trans names.four⟩, char,
      ⟨_, number, scalar?_eq_some_iff.mpr rfl⟩, rfl, rfl⟩

theorem startsEscape_mark_iff {candidate : List Char} :
    StartsEscape (mark ++ candidate) ↔ ∃ char rest, escaped? candidate = some (char, rest) := by
  simp only [StartsEscape, escaped?_eq_some_iff, List.append_assoc, List.append_cancel_left_eq]
  constructor
  · rintro ⟨digits, char, rest, names, rfl⟩
    exact ⟨char, rest, digits, names, rfl⟩
  · rintro ⟨char, rest, digits, names, rfl⟩
    exact ⟨digits, char, rest, names, rfl⟩

theorem StartsEscape.isPrefix {text : List Char} (h : StartsEscape text) : mark <+: text := by
  obtain ⟨digits, char, rest, -, rfl⟩ := h
  exact ⟨digits ++ rest, by rw [List.append_assoc]⟩

theorem not_startsEscape {text : List Char} (absent : mark.isPrefixOf? text = none) :
    ¬StartsEscape text := by
  intro starts
  obtain ⟨rest, e⟩ := starts.isPrefix
  rw [List.isPrefixOf?_eq_some_iff_append_eq.mpr e] at absent
  cases absent

/-! ## Reading once from the left -/

namespace OnePass

/-- What a reader does is settled by the text. -/
theorem unique {text out out' : List Char} (h : OnePass text out) (h' : OnePass text out') :
    out = out' := by
  induction h generalizing out' with
  | done =>
    cases h'
    rfl
  | @escape digits char rest out names _ ih =>
    generalize whole : mark ++ digits ++ rest = text at h'
    cases h' with
    | done => cases whole
    | @escape digits' char' rest' _ names' more =>
      rw [List.append_assoc, List.append_assoc, List.append_cancel_left_eq] at whole
      obtain ⟨rfl, rfl⟩ := List.append_inj whole (names.four.trans names'.four.symm)
      obtain rfl : char = char' := Char.toNat_inj.mp (names.unique names')
      rw [ih more]
    | single plain => exact absurd ⟨digits, char, rest, names, whole.symm⟩ plain
  | @single c rest out plain _ ih =>
    generalize whole : c :: rest = text at h'
    cases h' with
    | done => cases whole
    | @escape digits' char' rest' _ names' =>
      exact absurd ⟨digits', char', rest', names', whole⟩ plain
    | single _ more =>
      cases whole
      rw [ih more]

/-- Characters that no escape starts with are read one by one. -/
theorem append {text rest out : List Char} (none : ∀ c ∈ text, c ≠ '\\')
    (more : OnePass rest out) : OnePass (text ++ rest) (text ++ out) := by
  induction text with
  | nil => exact more
  | cons c text ih =>
    rw [List.forall_mem_cons] at none
    refine .single (fun starts => none.1 ?_) (ih none.2)
    obtain ⟨rest, e⟩ := starts.isPrefix
    rw [mark_eq] at e
    exact (List.cons.inj e).1.symm

/-- A mark whose escape names no character is read as the two characters that it is. -/
theorem mark_append {candidate out : List Char} (unnamed : escaped? candidate = none)
    (more : OnePass candidate out) : OnePass (mark ++ candidate) (mark ++ out) := by
  have plain : ¬StartsEscape (mark ++ candidate) := by
    rw [startsEscape_mark_iff, unnamed]
    simp
  exact .single plain (append (List.forall_mem_singleton.mpr (by decide)) more)

/-- The text before the first mark is read character by character. -/
theorem of_splitFirst? {text before candidate out : List Char}
    (found : splitFirst? mark text = some (before, candidate))
    (more : OnePass (mark ++ candidate) out) : OnePass text (before ++ out) := by
  induction text generalizing before with
  | nil => cases found
  | cons c text ih =>
    rw [splitFirst?] at found
    split at found
    · next here =>
      cases found
      rw [← List.isPrefixOf?_eq_some_iff_append_eq.mp here]
      exact more
    · next absent =>
      obtain ⟨⟨_, _⟩, later, e⟩ := Option.map_eq_some_iff.mp found
      cases e
      exact .single (not_startsEscape absent) (ih later)

theorem of_unmarked {text : List Char} (unmarked : splitFirst? mark text = none) :
    OnePass text text := by
  induction text with
  | nil => exact .done
  | cons c text ih =>
    rw [splitFirst?] at unmarked
    split at unmarked
    · cases unmarked
    · next absent =>
      exact .single (not_startsEscape absent) (ih (Option.map_eq_none_iff.mp unmarked))

theorem length_le {text out : List Char} (h : OnePass text out) : out.length ≤ text.length := by
  induction h with
  | done => exact Nat.le_refl _
  | escape _ _ ih =>
    rw [List.length_append, List.length_append, length_mark, List.length_cons]
    omega
  | single _ _ ih => exact Nat.succ_le_succ ih

theorem eq_self_iff {text out : List Char} (h : OnePass text out) :
    out = text ↔ ∀ rest, rest <:+ text → ¬StartsEscape rest := by
  induction h with
  | done =>
    refine iff_of_true rfl fun rest inside starts => ?_
    rw [List.suffix_nil.mp inside] at starts
    exact absurd starts.isPrefix (by decide)
  | @escape digits char rest out names more _ =>
    -- An escape is longer than what it names.
    refine iff_of_false (fun same => ?_) fun none => ?_
    · have shorter := more.length_le
      have length := congrArg List.length same
      rw [List.length_append, List.length_append, length_mark, List.length_cons] at length
      omega
    · exact none _ (List.suffix_refl _) ⟨digits, char, rest, names, rfl⟩
  | @single c rest out plain _ ih =>
    rw [List.cons.injEq, eq_self_iff_true, true_and, ih]
    simp only [List.suffix_cons_iff, forall_eq_or_imp, plain, not_false_eq_true, true_and]

end OnePass

/-! ## Going from mark to mark -/

/-- Going from mark to mark does what a reader does that goes over the text once. -/
theorem onePass_unescape (text : List Char) : OnePass text (unescape text) := by
  fun_induction unescape text with
  | case1 text unmarked => exact .of_unmarked unmarked
  | case2 text before candidate found char rest read ih =>
    obtain ⟨digits, names, rfl⟩ := escaped?_eq_some_iff.mp read
    refine .of_splitFirst? found ?_
    rw [← List.append_assoc]
    exact .escape names ih
  | case3 text before candidate found unnamed ih =>
    rw [List.append_assoc]
    exact .of_splitFirst? found (.mark_append unnamed ih)

theorem unescape_of_onePass {text out : List Char} (h : OnePass text out) : unescape text = out :=
  (onePass_unescape text).unique h

/-- Escapes are replaced in one pass from the left: what comes of a text is what a reader writes who
goes over it once. It is the text itself exactly if there is no escape in it. -/
theorem unescape_eq_iff (text : List Char) :
    (∀ out, unescape text = out ↔ OnePass text out) ∧
      (unescape text = text ↔ ∀ rest, rest <:+ text → ¬StartsEscape rest) :=
  ⟨fun _ => ⟨fun e => e ▸ onePass_unescape text, unescape_of_onePass⟩,
    (onePass_unescape text).eq_self_iff⟩

example : unescape "\\U\\U005cU0041\\U12".toList = "\\U\\U0041\\U12".toList := by cbv

end Diagnostic
end ScriptBridge
