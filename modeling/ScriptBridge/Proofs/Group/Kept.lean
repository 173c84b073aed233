import ScriptBridge.Proofs.Group.Literals
/-!
What the scanner keeps of a literal.

For a text without backslashes the scanner stays in step with the literal and ends no segment inside
of it (`uncut_quote_of_inStep`). What is between quotes is kept; what is outside of them is kept
where the braces before it leave the scanner inside of the group, and dropped elsewhere. So the
literal is kept whole if the scanner is inside wherever the literal leaves its quotes
(`StaysInside`).

Two kinds of text give an item: those without backslashes whose braces cancel each other and none of
whose data parts has more braces closed than opened before it (`item_of_bracesCancel`), and those
without braces of which no comma is read out of step (`item_of_inStep`).
-/
namespace ScriptBridge.Group

open Text Literal

/-! ## Texts without backslashes -/

section
variable {t : List Char}

theorem outOfStep_eq_false (h : '\\' ∉ t) : outOfStep false t = false := by
  induction t with
  | nil => rfl
  | cons c t ih =>
    rw [List.mem_cons, not_or] at h
    have hc : (c == '\\') = false := by simpa using Ne.symm h.1
    rw [outOfStep, hc, ih h.2]
    split <;> rfl

theorem held_escapeChar (depth : Int) (afterBackslash : Bool) (c : Char) :
    Held ⟨depth, true, afterBackslash⟩ (escapeChar c) := by
  have hq (s : Scanner) (hs : s.quoted = true) (x : Char) (hx : x ≠ '"' ∨ s.afterBackslash = true) :
      role true (s.step x) x false = .belongs := by
    apply role_quoted
    rcases hx with hx | hx <;> simp [Scanner.step, hs, hx]
  unfold escapeChar
  split
  · have h₁ := hq ⟨depth, true, afterBackslash⟩ rfl '\\' (Or.inl (by decide))
    have h₂ := hq (Scanner.step ⟨depth, true, afterBackslash⟩ '\\') (by simp [step_mk]) c
      (Or.inr (by simp [step_mk]))
    exact (Held.of_role h₁).append (.of_role h₂)
  · next h =>
    rw [not_or] at h
    have h₁ := hq ⟨depth, true, afterBackslash⟩ rfl c (Or.inl h.1)
    exact .of_role h₁

theorem uncut_quoteIn_of_inStep (h : '\\' ∉ t) :
    (∀ depth, Uncut ⟨depth, true, false⟩ (quoteInString t)) ∧
      (∀ depth, Uncut ⟨depth, false, false⟩ (quoteInData t)) := by
  induction t with
  | nil =>
    refine ⟨fun depth => ?_, fun depth => uncut_inert dataClosing_inert _⟩
    exact (uncut_mark _ _).mpr (uncut_inert (by decide) _)
  | cons c t ih =>
    rw [List.mem_cons, not_or] at h
    obtain ⟨hs, hd⟩ := ih h.2
    have he (depth : Int) : Uncut ⟨depth, true, false⟩ (escapeChar c ++ quoteInString t) := by
      have hc : (c == '\\') = false := by simpa using Ne.symm h.1
      rw [uncut_append, run_escapeChar, hc]
      exact ⟨(held_escapeChar _ _ _).uncut, hs _⟩
    cases hc : isPlain c with
    | true =>
      constructor
      · intro depth
        rw [quoteInString_plain hc]
        exact he depth
      · intro depth
        rw [quoteInData_plain hc, uncut_append, run_inert closesData_inert, uncut_mark, step_quote]
        exact ⟨uncut_inert closesData_inert _, he depth⟩
    | false =>
      constructor
      · intro depth
        rw [quoteInString_other hc, uncut_mark, step_quote, uncut_append,
          run_inert (opensData_inert c)]
        exact ⟨uncut_inert (opensData_inert c) _, hd depth⟩
      · intro depth
        rw [quoteInData_other hc, uncut_append, run_inert (lower_inert _)]
        exact ⟨uncut_inert (lower_inert _) _, hd depth⟩

/-- A literal of a text without backslashes is cut nowhere. -/
theorem uncut_quote_of_inStep {s : Scanner} (hq : s.quoted = false) (h : '\\' ∉ t) :
    Uncut s (quote t) := by
  rw [show quote t = ['(', '"'] ++ quoteInString t from rfl, uncut_append, run_opening s hq]
  refine ⟨⟨role_other_ne_ends (by decide) (by decide) (by decide) _, ?_⟩,
    (uncut_quoteIn_of_inStep h).1 _⟩
  exact (uncut_mark _ _).mpr trivial

end

/-! ## What is kept, part by part -/

/-- What is kept of the rest of a literal from inside of a string part, at a depth. -/
def keptString (depth : Int) (t : List Char) : List Char :=
  kept ⟨depth, true, false⟩ (quoteInString t)

/-- What is kept of the rest of a literal from inside of a data part, at a depth. -/
def keptData (depth : Int) (t : List Char) : List Char := kept ⟨depth, false, false⟩ (quoteInData t)

/-- A text outside of quotes, if the scanner is inside of the group. -/
def ifInside (depth : Int) (a : List Char) : List Char := if 1 ≤ depth then a else []

theorem kept_inert_outside {a : List Char} (ha : Inert a) (depth : Int) :
    kept ⟨depth, false, false⟩ a = ifInside depth a := by
  rw [kept_inert ha, ifInside]
  simp

theorem kept_closing (depth : Int) (rest : List Char) :
    kept ⟨depth, true, false⟩ ('"' :: rest) =
      ifInside depth ['"'] ++ kept ⟨depth, false, false⟩ rest := by
  have e : Scanner.step ⟨depth, true, false⟩ '"' = ⟨depth, false, false⟩ := step_quote _ _ _
  rw [kept, e, role_other (by decide) (by decide) (by decide), ifInside]
  by_cases hd : 1 ≤ depth <;> simp [hd]

theorem kept_opening (depth : Int) (rest : List Char) :
    kept ⟨depth, false, false⟩ ('"' :: rest) = '"' :: kept ⟨depth, true, false⟩ rest := by
  have e : Scanner.step ⟨depth, false, false⟩ '"' = ⟨depth, true, false⟩ := step_quote _ _ _
  rw [kept, e, role_quoted rfl, if_pos rfl]

theorem keptString_nil (depth : Int) : keptString depth [] = ifInside depth ['"', ')'] := by
  rw [keptString, quoteInString, kept_closing, kept_inert_outside (by decide), ifInside, ifInside,
    ifInside]
  by_cases hd : 1 ≤ depth <;> simp [hd]

theorem keptData_nil (depth : Int) : keptData depth [] = ifInside depth (dataClosing ++ [')']) :=
  kept_inert_outside dataClosing_inert depth

section
variable {c : Char} (depth : Int) (t : List Char)

theorem kept_escapeChar_append (hb : c ≠ '\\') :
    kept ⟨depth, true, false⟩ (escapeChar c ++ quoteInString t) =
      escapeChar c ++ keptString (depth + brace c) t := by
  rw [kept_append, (held_escapeChar _ _ _).kept, run_escapeChar,
    show (c == '\\') = false by simpa using hb]
  rfl

theorem keptString_plain (hc : isPlain c = true) (hb : c ≠ '\\') :
    keptString depth (c :: t) = escapeChar c ++ keptString (depth + brace c) t := by
  rw [keptString, quoteInString_plain hc, kept_escapeChar_append depth t hb]

theorem keptString_other (hc : isPlain c = false) :
    keptString depth (c :: t) = ifInside depth ('"' :: opensData c) ++ keptData depth t := by
  rw [keptString, quoteInString_other hc, kept_closing, kept_append,
    kept_inert_outside (opensData_inert c), run_inert (opensData_inert c), ifInside, ifInside,
    ifInside, keptData]
  by_cases hd : 1 ≤ depth <;> simp [hd]

theorem keptData_plain (hc : isPlain c = true) (hb : c ≠ '\\') :
    keptData depth (c :: t) =
      ifInside depth closesData ++ '"' :: (escapeChar c ++ keptString (depth + brace c) t) := by
  rw [keptData, quoteInData_plain hc, kept_append, kept_inert_outside closesData_inert,
    run_inert closesData_inert, kept_opening, kept_escapeChar_append depth t hb]

theorem keptData_other (hc : isPlain c = false) :
    keptData depth (c :: t) =
      ifInside depth (Hex.lower (Utf8.encodeChar c)) ++ keptData depth t := by
  rw [keptData, quoteInData_other hc, kept_append, kept_inert_outside (lower_inert _),
    run_inert (lower_inert _)]
  rfl

end

theorem kept_quote {s : Scanner} (hq : s.quoted = false) (hd : 1 ≤ s.depth) (t : List Char) :
    kept s (quote t) = '(' :: '"' :: keptString s.depth t := by
  have e₁ : s.step '(' = ⟨s.depth, false, false⟩ := by simp [Scanner.step, hq]
  rw [quote, kept, e₁, role_other (by decide) (by decide) (by decide), if_pos (by simp [hd]),
    kept_opening]
  rfl

/-! ## Literals that are kept whole -/

/-- Whether the scanner, at a depth, is inside of the group at each character of a text that is
written as data. -/
def DataInside (depth : Int) (t : List Char) : Prop :=
  Everywhere (fun before c => isPlain c = false → 1 ≤ depth + openBraces before) t

/-- Whether it is inside there and at the end of the text. -/
structure StaysInside (depth : Int) (t : List Char) : Prop where
  data : DataInside depth t
  last : 1 ≤ depth + openBraces t

theorem dataInside_cons {depth : Int} {c : Char} {t : List Char} :
    DataInside depth (c :: t) ↔
      (isPlain c = false → 1 ≤ depth) ∧ DataInside (depth + brace c) t := by
  rw [DataInside, everywhere_cons, openBraces, Int.add_zero]
  refine and_congr_right fun _ => Everywhere.congr fun before x => ?_
  rw [openBraces, Int.add_assoc]

theorem StaysInside.tail {depth : Int} {c : Char} {t : List Char} (h : StaysInside depth (c :: t)) :
    StaysInside (depth + brace c) t := by
  obtain ⟨hd, hl⟩ := h
  rw [openBraces] at hl
  exact ⟨(dataInside_cons.mp hd).2, by omega⟩

theorem kept_of_staysInside {t : List Char} (hb : '\\' ∉ t) :
    (∀ depth, StaysInside depth t → keptString depth t = quoteInString t) ∧
      (∀ depth, 1 ≤ depth → StaysInside depth t → keptData depth t = quoteInData t) := by
  induction t with
  | nil =>
    constructor
    · intro depth h
      have hl := h.last
      rw [openBraces] at hl
      rw [keptString_nil, ifInside, if_pos (by omega)]
      rfl
    · intro depth hd _
      rw [keptData_nil, ifInside, if_pos hd]
      rfl
  | cons c t ih =>
    rw [List.mem_cons, not_or] at hb
    obtain ⟨hs, hdata⟩ := ih hb.2
    have hne := Ne.symm hb.1
    cases hc : isPlain c with
    | true =>
      constructor
      · intro depth h
        rw [keptString_plain depth t hc hne, hs _ h.tail, quoteInString_plain hc]
      · intro depth hd h
        rw [keptData_plain depth t hc hne, hs _ h.tail, quoteInData_plain hc, ifInside, if_pos hd]
    | false =>
      have hbrace := brace_of_not_plain hc
      constructor
      · intro depth h
        -- The literal leaves its quotes here, so the scanner has to be inside.
        have hd : 1 ≤ depth := (dataInside_cons.mp h.data).1 hc
        have ht := h.tail
        rw [hbrace, Int.add_zero] at ht
        rw [keptString_other depth t hc, hdata depth hd ht, quoteInString_other hc, ifInside,
          if_pos hd]
        rfl
      · intro depth hd h
        have ht := h.tail
        rw [hbrace, Int.add_zero] at ht
        rw [keptData_other depth t hc, hdata depth hd ht, quoteInData_other hc, ifInside, if_pos hd]

theorem held_quote {t : List Char} (hb : '\\' ∉ t) {s : Scanner} (hs : s.AtItem)
    (hi : StaysInside s.depth t) : Held s (quote t) := by
  refine ⟨uncut_quote_of_inStep hs.unquoted hb, ?_⟩
  rw [kept_quote hs.unquoted hs.depth, (kept_of_staysInside hb).1 _ hi]
  rfl

/-- Whether the braces of a text cancel each other, and before no character that is written as data
more of them are closed than opened. -/
structure BracesCancel (t : List Char) : Prop where
  total : openBraces t = 0
  data : Everywhere (fun before c => isPlain c = false → 0 ≤ openBraces before) t

instance (t : List Char) : Decidable (BracesCancel t) :=
  decidable_of_iff (openBraces t = 0 ∧
    Everywhere (fun before c => isPlain c = false → 0 ≤ openBraces before) t)
    ⟨fun h => ⟨h.1, h.2⟩, fun h => ⟨h.total, h.data⟩⟩

/-- Whether the scanner is in step with the literal of a text at the text's commas and at its end:
before these, evenly many ASCII runs end in a backslash. -/
structure InStep (t : List Char) : Prop where
  commas : Everywhere (fun before c => c = ',' → outOfStep false (before ++ [',']) = false) t
  last : outOfStep false t = false

instance (t : List Char) : Decidable (InStep t) :=
  decidable_of_iff (Everywhere (fun before c => c = ',' →
    outOfStep false (before ++ [',']) = false) t ∧ outOfStep false t = false)
    ⟨fun h => ⟨h.1, h.2⟩, fun h => ⟨h.commas, h.last⟩⟩

theorem item_of_bracesCancel {t : List Char} (hb : '\\' ∉ t) (h : BracesCancel t) :
    Item (quote t) := by
  have hrun (s : Scanner) (hs : s.AtItem) : s.run (quote t) = ⟨s.depth, false, false⟩ := by
    rw [run_quote hs.unquoted, h.total, outOfStep_eq_false hb, Int.add_zero]
  refine .of_stays (quote_tight t) fun s hs => .of_run (held_quote hb hs ⟨?_, ?_⟩) (hrun s hs)
  · intro before c after e hc
    have := h.data before c after e hc
    have := hs.depth
    omega
  · rw [h.total, Int.add_zero]
    exact hs.depth

theorem item_of_inStep {t : List Char} (hb : Braceless t) (h : InStep t) :
    Item (quote t) := by
  have hrun (s : Scanner) (hs : s.AtItem) : s.run (quote t) = ⟨s.depth, false, false⟩ := by
    rw [run_quote hs.unquoted, openBraces_eq_zero hb, h.last, Int.add_zero]
  refine .of_stays (quote_tight t) fun s hs => .of_run ?_ (hrun s hs)
  have hu : Uncut s (quote t) := (uncut_quote_iff hs.unquoted hb).mpr
    fun before c after e hc _ => h.commas before c after e hc
  exact Held.of_uncut (braceless_quote hb) hs.depth hu

end ScriptBridge.Group
