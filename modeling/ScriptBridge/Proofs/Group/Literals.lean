import ScriptBridge.Proofs.Group.Scan
import ScriptBridge.Proofs.Literal.ReadBack
/-!
What the scanner of groups makes of a literal.

Braces in a text move the scanner's depth also where they are quoted (`openBraces`), and a run that
ends in a backslash hides the quote that closes it, since the scanner takes any quote after a
backslash for an escaped one; from there on it takes the inside of string literals for the outside
(`outOfStep`). Both are all that a literal does to the scanner (`run_quote`).

A text without braces is cut nowhere exactly if no comma stands where the scanner is out of step
(`uncut_quote_iff`). A text without backslashes is kept whole if the scanner is inside of the group
at every character that is written as data and at the end (`StaysInside`, `held_quote`).
-/
namespace ScriptBridge.Group

open Text Literal

/-! ## How literals go on -/

/-- What follows a string part's last quote up to the bytes of a data part's first character. -/
def opensData (c : Char) : List Char :=
  [' ', '&', ' '] ++ dataOpening ++ Hex.lower (Utf8.encodeChar c)

/-- What follows the bytes of a data part up to a string part's first quote. -/
def closesData : List Char := dataClosing ++ [' ', '&', ' ']

section
variable {c : Char}

theorem quoteInString_plain (hc : isPlain c = true) (t : List Char) :
    quoteInString (c :: t) = escapeChar c ++ quoteInString t := by
  rw [quoteInString, if_pos hc]

theorem quoteInString_other (hc : isPlain c = false) (t : List Char) :
    quoteInString (c :: t) = '"' :: (opensData c ++ quoteInData t) := by
  rw [quoteInString, if_neg (by simp [hc])]
  simp [opensData]

theorem quoteInData_plain (hc : isPlain c = true) (t : List Char) :
    quoteInData (c :: t) = closesData ++ '"' :: (escapeChar c ++ quoteInString t) := by
  rw [quoteInData, if_pos hc]
  simp [closesData]

theorem quoteInData_other (hc : isPlain c = false) (t : List Char) :
    quoteInData (c :: t) = Hex.lower (Utf8.encodeChar c) ++ quoteInData t := by
  rw [quoteInData, if_neg (by simp [hc])]

end

theorem lower_inert (bytes : List UInt8) : Inert (Hex.lower bytes) :=
  Hex.forall_mem_lower (P := fun x => isInert x = true) (by decide) bytes

theorem opensData_inert (c : Char) : Inert (opensData c) := by
  intro x hx
  rw [opensData, List.mem_append] at hx
  rcases hx with hx | hx
  · exact List.all_eq_true.mp (by decide : ([' ', '&', ' '] ++ dataOpening).all isInert = true) x hx
  · exact lower_inert _ x hx

theorem closesData_inert : Inert closesData := by decide

theorem dataClosing_inert : Inert (dataClosing ++ [')']) := by decide

/-! ## Depth and step -/

/-- What a character adds to the depth of braces. -/
def brace (c : Char) : Int := if c = '\x7b' then 1 else if c = '\x7d' then -1 else 0

/-- How many braces a text opens and leaves open; below zero if it closes more. -/
def openBraces : List Char → Int
  | [] => 0
  | c :: rest => brace c + openBraces rest

/-- Whether the scanner takes the inside of string literals for the outside, and the other way
round, once it has read a text in a string literal; the flag says whether the character before it
was a backslash. -/
def outOfStep (afterBackslash : Bool) : List Char → Bool
  | [] => afterBackslash
  | c :: rest =>
    if isPlain c then outOfStep (c == '\\') rest else afterBackslash ^^ outOfStep false rest

theorem brace_of_not_plain {c : Char} (hc : isPlain c = false) : brace c = 0 := by
  have h₁ : c ≠ '\x7b' := by rintro rfl; exact absurd hc (by decide)
  have h₂ : c ≠ '\x7d' := by rintro rfl; exact absurd hc (by decide)
  rw [brace, if_neg h₁, if_neg h₂]

theorem step_mk (depth : Int) (quoted afterBackslash : Bool) (c : Char) :
    Scanner.step ⟨depth, quoted, afterBackslash⟩ c =
      ⟨depth + brace c, if c = '"' ∧ afterBackslash = false then !quoted else quoted,
        c == '\\'⟩ := by
  simp only [Scanner.step, brace]
  congr 1
  split
  · rfl
  · split <;> omega

theorem step_quote (depth : Int) (quoted afterBackslash : Bool) :
    Scanner.step ⟨depth, quoted, afterBackslash⟩ '"' =
      ⟨depth, quoted ^^ !afterBackslash, false⟩ := by
  cases afterBackslash <;> simp [step_mk, brace]

theorem run_escapeChar (depth : Int) (quoted afterBackslash : Bool) (c : Char) :
    Scanner.run ⟨depth, quoted, afterBackslash⟩ (escapeChar c) =
      ⟨depth + brace c, quoted, c == '\\'⟩ := by
  unfold escapeChar
  split
  · next h => rcases h with rfl | rfl <;> simp [step_mk, brace]
  · next h =>
    rw [not_or] at h
    simp [step_mk, h.1]

theorem run_quoteIn (t : List Char) :
    (∀ depth quoted afterBackslash,
      Scanner.run ⟨depth, quoted, afterBackslash⟩ (quoteInString t) =
        ⟨depth + openBraces t, !(quoted ^^ outOfStep afterBackslash t), false⟩) ∧
    (∀ depth quoted,
      Scanner.run ⟨depth, quoted, false⟩ (quoteInData t) =
        ⟨depth + openBraces t, quoted ^^ outOfStep false t, false⟩) := by
  induction t with
  | nil =>
    constructor
    · intro depth quoted afterBackslash
      cases quoted <;> cases afterBackslash <;>
        simp [quoteInString, Scanner.step, openBraces, outOfStep]
    · intro depth quoted
      rw [quoteInData, run_inert dataClosing_inert]
      simp [openBraces, outOfStep]
  | cons c t ih =>
    obtain ⟨hs, hd⟩ := ih
    cases hc : isPlain c with
    | true =>
      constructor
      · intro depth quoted afterBackslash
        rw [quoteInString_plain hc, run_append, run_escapeChar, hs]
        simp [openBraces, outOfStep, hc, Int.add_assoc]
      · intro depth quoted
        rw [quoteInData_plain hc, run_append, run_inert closesData_inert, run_cons, step_quote,
          run_append, run_escapeChar, hs]
        simp [openBraces, outOfStep, hc, Int.add_assoc]
    | false =>
      constructor
      · intro depth quoted afterBackslash
        -- A backslash before it hides the quote that closes the part.
        rw [quoteInString_other hc, run_cons, step_quote, run_append,
          run_inert (opensData_inert c), hd]
        cases quoted <;> cases afterBackslash <;>
          simp [openBraces, outOfStep, hc, brace_of_not_plain hc]
      · intro depth quoted
        rw [quoteInData_other hc, run_append, run_inert (lower_inert _), hd]
        simp [openBraces, outOfStep, hc, brace_of_not_plain hc]

theorem run_opening (s : Scanner) (hq : s.quoted = false) :
    s.run ['(', '"'] = ⟨s.depth, true, false⟩ := by
  simp [Scanner.step, hq]

/-- All that a literal does to the scanner. -/
theorem run_quote {s : Scanner} (hq : s.quoted = false) (t : List Char) :
    s.run (quote t) = ⟨s.depth + openBraces t, outOfStep false t, false⟩ := by
  rw [show quote t = ['(', '"'] ++ quoteInString t from rfl, run_append, run_opening s hq,
    (run_quoteIn t).1]
  simp

/-! ## Places of a text -/

/-- Whether something holds of every character of a text and what stands before it. -/
def Everywhere (P : List Char → Char → Prop) (t : List Char) : Prop :=
  ∀ before c after, t = before ++ c :: after → P before c

theorem everywhere_nil (P : List Char → Char → Prop) : Everywhere P [] := by
  intro before c after h
  simp at h

theorem everywhere_cons {P : List Char → Char → Prop} {c : Char} {t : List Char} :
    Everywhere P (c :: t) ↔ P [] c ∧ Everywhere (fun before => P (c :: before)) t := by
  constructor
  · intro h
    refine ⟨h [] c t rfl, fun before x after e => h (c :: before) x after ?_⟩
    rw [e]
    rfl
  · rintro ⟨h₁, h₂⟩ before x after e
    cases before with
    | nil =>
      rw [List.nil_append, List.cons.injEq] at e
      exact e.1 ▸ h₁
    | cons y before =>
      rw [List.cons_append, List.cons.injEq] at e
      exact e.1 ▸ h₂ before x after e.2

instance decidableEverywhere : (P : List Char → Char → Prop) →
    [∀ before c, Decidable (P before c)] → (t : List Char) → Decidable (Everywhere P t)
  | P, _, [] => isTrue (everywhere_nil P)
  | P, _, c :: t =>
    have := decidableEverywhere (fun before => P (c :: before)) t
    decidable_of_iff (P [] c ∧ Everywhere (fun before => P (c :: before)) t) everywhere_cons.symm

theorem Everywhere.congr {P Q : List Char → Char → Prop} {t : List Char}
    (h : ∀ before c, P before c ↔ Q before c) : Everywhere P t ↔ Everywhere Q t :=
  ⟨fun hp before c after e => (h before c).mp (hp before c after e),
    fun hq before c after e => (h before c).mpr (hq before c after e)⟩

/-! ## Texts without braces -/

/-- Text without braces. -/
def Braceless (t : List Char) : Prop := ∀ c ∈ t, brace c = 0

instance (t : List Char) : Decidable (Braceless t) :=
  decidable_of_iff (t.all (brace · == 0) = true) (by simp [Braceless])

theorem ne_of_brace {c : Char} (h : brace c = 0) : c ≠ '\x7b' ∧ c ≠ '\x7d' := by
  constructor
  · rintro rfl
    exact absurd h (by decide)
  · rintro rfl
    exact absurd h (by decide)

theorem Braceless.append {a b : List Char} (ha : Braceless a) (hb : Braceless b) :
    Braceless (a ++ b) := List.forall_mem_append.mpr ⟨ha, hb⟩

theorem Braceless.cons {c : Char} {t : List Char} (hc : brace c = 0) (ht : Braceless t) :
    Braceless (c :: t) := List.forall_mem_cons.mpr ⟨hc, ht⟩

theorem braceless_of_not_mem {t : List Char} (h : '\x7b' ∉ t ∧ '\x7d' ∉ t) : Braceless t := by
  intro c hc
  have h₁ : c ≠ '\x7b' := fun e => h.1 (e ▸ hc)
  have h₂ : c ≠ '\x7d' := fun e => h.2 (e ▸ hc)
  rw [brace, if_neg h₁, if_neg h₂]

theorem openBraces_eq_zero {t : List Char} (h : Braceless t) : openBraces t = 0 := by
  induction t with
  | nil => rfl
  | cons c t ih =>
    rw [openBraces, h c List.mem_cons_self, ih fun x hx => h x (List.mem_cons_of_mem c hx)]
    rfl

theorem braceless_of_inert {a : List Char} (ha : Inert a) : Braceless a := by
  intro c hc
  have h := ha c hc
  simp only [isInert, Bool.and_eq_true, bne_iff_ne, ne_eq] at h
  rw [brace, if_neg h.1.2, if_neg h.2]

theorem braceless_escapeChar {c : Char} (hc : brace c = 0) : Braceless (escapeChar c) := by
  unfold escapeChar
  split
  · intro x hx
    simp only [List.mem_cons, List.not_mem_nil, or_false] at hx
    rcases hx with rfl | rfl
    · decide
    · exact hc
  · intro x hx
    rw [List.mem_singleton.mp hx]
    exact hc

theorem braceless_quoteIn {t : List Char} (h : Braceless t) :
    Braceless (quoteInString t) ∧ Braceless (quoteInData t) := by
  induction t with
  | nil => exact ⟨by decide, braceless_of_inert dataClosing_inert⟩
  | cons c t ih =>
    obtain ⟨hs, hd⟩ := ih fun x hx => h x (List.mem_cons_of_mem c hx)
    have he := braceless_escapeChar (h c List.mem_cons_self)
    cases hc : isPlain c with
    | true =>
      rw [quoteInString_plain hc, quoteInData_plain hc]
      exact ⟨he.append hs,
        (braceless_of_inert closesData_inert).append (.cons (by decide) (he.append hs))⟩
    | false =>
      rw [quoteInString_other hc, quoteInData_other hc]
      exact ⟨.cons (by decide) ((braceless_of_inert (opensData_inert c)).append hd),
        (braceless_of_inert (lower_inert _)).append hd⟩

theorem braceless_quote {t : List Char} (h : Braceless t) : Braceless (quote t) :=
  .cons (by decide) (.cons (by decide) (braceless_quoteIn h).1)

/-- Inside of the group, all of a text without braces is kept unless some of it ends a segment. -/
theorem Held.of_uncut {s : Scanner} {a : List Char} (h : Braceless a) (hd : 1 ≤ s.depth)
    (hu : Uncut s a) : Held s a := by
  refine ⟨hu, ?_⟩
  induction a generalizing s with
  | nil => rfl
  | cons c a ih =>
    obtain ⟨hr, hu⟩ := hu
    have hb := ne_of_brace (h c List.mem_cons_self)
    have hstep : (s.step c).depth = s.depth := by simp [Scanner.step, hb]
    have belongs : role true (s.step c) c false = .belongs := by
      by_cases hc : c = ','
      · subst hc
        cases hq : (s.step ',').quoted with
        | true => exact role_quoted hq ','
        | false =>
          rw [role_comma hq, hstep] at hr ⊢
          have h1 : s.depth ≠ 1 := fun h1 => hr (by rw [if_pos h1])
          rw [if_neg h1, if_pos (by omega)]
      · rw [role_other hc hb.1 hb.2, if_pos (Or.inr (by omega))]
    rw [Group.kept, if_pos belongs, ih (fun x hx => h x (List.mem_cons_of_mem c hx)) (by omega) hu]

/-- An escaped character ends a segment only as a comma outside of quotes at the depth of items. -/
theorem uncut_escapeChar {c : Char} (hb : brace c = 0) (depth : Int)
    (quoted afterBackslash : Bool) :
    Uncut ⟨depth, quoted, afterBackslash⟩ (escapeChar c) ↔
      (c = ',' → depth = 1 → quoted = true) := by
  have hne := ne_of_brace hb
  by_cases hc : c = ','
  · subst hc
    cases quoted with
    | true => simp [escapeChar, Uncut, role_quoted, step_mk]
    | false =>
      have e : Scanner.step ⟨depth, false, afterBackslash⟩ ',' = ⟨depth, false, false⟩ := by
        simp [step_mk, hb]
      have hr : role true ⟨depth, false, false⟩ ',' false ≠ .ends ↔ depth ≠ 1 := by
        rw [role_comma rfl]
        simp only
        split
        · simp [*]
        · split <;> simp [*]
      rw [show escapeChar ',' = [','] from rfl, Uncut, e, hr]
      simp [Uncut]
  · have hr (s : Scanner) : role true s c false ≠ .ends := role_other_ne_ends hc hne.1 hne.2 s
    have hbs (s : Scanner) : role true s '\\' false ≠ .ends :=
      role_other_ne_ends (by decide) (by decide) (by decide) s
    simp only [hc, false_imp_iff, iff_true]
    unfold escapeChar
    split
    · exact ⟨hbs _, hr _, trivial⟩
    · exact ⟨hr _, trivial⟩

theorem uncut_mark (s : Scanner) (text : List Char) :
    Uncut s ('"' :: text) ↔ Uncut (s.step '"') text :=
  ⟨fun h => h.2, fun h => ⟨role_other_ne_ends (by decide) (by decide) (by decide) _, h⟩⟩

/-- A literal of a text without braces is cut exactly at the commas that the scanner, out of step,
takes for outside of quotes. -/
theorem uncut_quoteIn {t : List Char} (h : Braceless t) (depth : Int) :
    (∀ quoted afterBackslash, Uncut ⟨depth, quoted, afterBackslash⟩ (quoteInString t) ↔
      Everywhere (fun before c => c = ',' → depth = 1 →
        (quoted ^^ outOfStep afterBackslash (before ++ [','])) = true) t) ∧
    (∀ quoted, Uncut ⟨depth, quoted, false⟩ (quoteInData t) ↔
      Everywhere (fun before c => c = ',' → depth = 1 →
        (quoted ^^ outOfStep false (before ++ [','])) = false) t) := by
  induction t with
  | nil =>
    refine ⟨fun quoted afterBackslash => iff_of_true ?_ (everywhere_nil _),
      fun quoted => iff_of_true (uncut_inert dataClosing_inert _) (everywhere_nil _)⟩
    exact (uncut_mark _ _).mpr (uncut_inert (by decide) _)
  | cons c t ih =>
    obtain ⟨hs, hd⟩ := ih fun x hx => h x (List.mem_cons_of_mem c hx)
    have hb := h c List.mem_cons_self
    have here (afterBackslash : Bool) : outOfStep afterBackslash ([] ++ [',']) = false := rfl
    cases hc : isPlain c with
    | true =>
      constructor
      · intro quoted afterBackslash
        rw [quoteInString_plain hc, uncut_append, run_escapeChar, hb, Int.add_zero,
          uncut_escapeChar hb, hs, everywhere_cons, here]
        simp [outOfStep, hc]
      · intro quoted
        rw [quoteInData_plain hc, uncut_append, run_inert closesData_inert, uncut_mark, step_quote,
          uncut_append, run_escapeChar, hb, Int.add_zero, uncut_escapeChar hb, hs, everywhere_cons,
          here]
        simp [outOfStep, hc, uncut_inert closesData_inert]
    | false =>
      have hne : c ≠ ',' := by rintro rfl; exact absurd hc (by decide)
      constructor
      · intro quoted afterBackslash
        rw [quoteInString_other hc, uncut_mark, step_quote, uncut_append,
          run_inert (opensData_inert c), hd, everywhere_cons]
        simp only [uncut_inert (opensData_inert c), hne, true_and, false_imp_iff]
        apply Everywhere.congr
        intro before x
        rw [List.cons_append, outOfStep, hc]
        cases quoted <;> cases afterBackslash <;> simp
      · intro quoted
        rw [quoteInData_other hc, uncut_append, run_inert (lower_inert _), hd, everywhere_cons]
        simp [outOfStep, hc, uncut_inert (lower_inert _), hne]

theorem uncut_quote_iff {s : Scanner} (hq : s.quoted = false) {t : List Char}
    (h : Braceless t) :
    Uncut s (quote t) ↔ Everywhere (fun before c => c = ',' → s.depth = 1 →
      outOfStep false (before ++ [',']) = false) t := by
  rw [show quote t = ['(', '"'] ++ quoteInString t from rfl, uncut_append, run_opening s hq,
    (uncut_quoteIn h s.depth).1]
  have opening : Uncut s ['(', '"'] :=
    ⟨role_other_ne_ends (by decide) (by decide) (by decide) _, (uncut_mark _ _).mpr trivial⟩
  simp [opening]

end ScriptBridge.Group
