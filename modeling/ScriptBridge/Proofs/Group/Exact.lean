import ScriptBridge.Proofs.Group.Gaps
/-!
Which lists of literals come back.

Between braces the literals of texts without braces come out as they went in exactly if the scanner
is in step with each of them (`segments?_quotes_iff`): a comma read out of step makes the first
segment too short, and an end out of step makes it too long.

The literals of texts without backslashes are read as these texts exactly if the braces of each
cancel each other (`segments?_texts_iff`): a comma at another depth than that of the items divides
nothing, so that there are too few segments, and a literal with a gap reads as another text.
-/
namespace ScriptBridge.Group

open Text Literal

/-! ## Where the first segment ends -/

theorem exists_cut {s : Scanner} {text : List Char} (h : ¬Uncut s text) :
    ∃ a c b, text = a ++ c :: b ∧ Uncut s a ∧ role true ((s.run a).step c) c false = .ends := by
  induction text generalizing s with
  | nil => exact absurd trivial h
  | cons c text ih =>
    by_cases hc : role true (s.step c) c false = .ends
    · exact ⟨[], c, text, rfl, trivial, hc⟩
    · obtain ⟨a, d, b, rfl, ha, hd⟩ := ih fun hu => h ⟨hc, hu⟩
      exact ⟨c :: a, d, b, rfl, ⟨hc, ha⟩, hd⟩

theorem segmentsFrom_cut {s : Scanner} {a : List Char} {c : Char} (ha : Uncut s a)
    (hc : role true ((s.run a).step c) c false = .ends) (current rest : List Char) :
    (segmentsFrom true s current (a ++ c :: rest)).1 =
      pushSegment (current.reverse ++ kept s a)
        (segmentsFrom true ((s.run a).step c) [] rest).1 := by
  have hr (l : Bool) : role true ((s.run a).step c) c l = .ends := by
    rw [← hc, role_braced, role_braced]
  rw [segmentsFrom_append ha, segmentsFrom, hr]
  simp

theorem isPrefix_first {s : Scanner} {blank p rest segment : List Char}
    {segments : List (List Char)} (hb : AllBlank blank) (hp : Tight p)
    (h : (segmentsFrom true s (blank ++ p).reverse rest).1 = segment :: segments) :
    p <+: segment := by
  by_cases hu : Uncut s rest
  · rw [segmentsFrom_uncut hu] at h
    contradiction
  · obtain ⟨a, c, b, rfl, ha, hc⟩ := exists_cut hu
    have ht : trim (blank ++ p ++ kept s a) = p ++ trimEnd (kept s a) := by
      rw [List.append_assoc, trim_blank_append hb, hp.trim_append]
    have hne : (p ++ trimEnd (kept s a)).isEmpty = false := by
      obtain ⟨d, r, rfl, -⟩ := hp.first
      rfl
    rw [segmentsFrom_cut ha hc, List.reverse_reverse, pushSegment, ht] at h
    simp only [hne, Bool.false_eq_true, if_false, List.cons.injEq] at h
    exact ⟨trimEnd (kept s a), h.1⟩

theorem length_first_lt {s : Scanner} (hs : s.AtItem) {blank : List Char} (hb : AllBlank blank)
    {c : Char} (hc : isInert c = true ∧ isBlank c = false) {text rest segment : List Char}
    {segments : List (List Char)} (hu : ¬Uncut s (c :: text))
    (h : (segmentsFrom true s blank.reverse (c :: text ++ rest)).1 = segment :: segments) :
    segment.length < (c :: text).length := by
  have hr : role true (s.step c) c false = .belongs := by
    rw [role_inert hc.1, step_inert hc.1, if_pos (Or.inr hs.depth)]
  obtain ⟨a, d, b, e, ha, hd⟩ := exists_cut hu
  cases a with
  | nil =>
    rw [List.nil_append, List.cons.injEq] at e
    rw [← e.1, run_nil, hr] at hd
    contradiction
  | cons x a =>
    obtain ⟨rfl, -⟩ := List.cons.inj e
    rw [e, show c :: a ++ d :: b ++ rest = c :: a ++ d :: (b ++ rest) by simp,
      segmentsFrom_cut ha hd, List.reverse_reverse, kept, if_pos hr, pushSegment,
      trim_blank_append hb] at h
    have ht : trim (c :: kept (s.step c) a) = c :: trimEnd (kept (s.step c) a) :=
      (Tight.singleton hc.2).trim_append (kept (s.step c) a)
    simp only [ht, List.isEmpty_cons, Bool.false_eq_true, if_false, List.cons.injEq] at h
    have h₁ := (trimEnd_isPrefix (kept (s.step c) a)).length_le
    have h₂ := kept_length_le (s.step c) a
    rw [← h.1, e]
    simp only [List.length_cons, List.length_append]
    omega

/-! ## Literals in step -/

/-- What follows the first item of a list, up to its end. -/
def afterFirst (items : List (List Char)) : List Char :=
  (items.flatMap fun t => [',', ' '] ++ t) ++ ['\x7d']

theorem joined_cons (t : List Char) (ts : List (List Char)) :
    joined (t :: ts) ++ ['\x7d'] = t ++ afterFirst ts := by
  induction ts generalizing t with
  | nil => simp [joined, afterFirst]
  | cons u ts ih =>
    rw [joined_cons_cons, List.append_assoc, List.append_assoc, ih]
    simp [afterFirst]

theorem afterFirst_cons (t : List Char) (ts : List (List Char)) :
    afterFirst (t :: ts) = ',' :: ' ' :: (joined (t :: ts) ++ ['\x7d']) := by
  rw [joined_cons]
  simp [afterFirst]

/-- A literal that the scanner is out of step with does not end where it should. -/
theorem ne_first_of_outOfStep {blank : List Char} (hb : AllBlank blank) (t : List Char)
    (texts segments : List (List Char)) :
    (segmentsFrom true ⟨1, true, false⟩ (blank ++ quote t).reverse
      (afterFirst (texts.map quote))).1 ≠ quote t :: segments := by
  intro h
  cases texts with
  | nil =>
    have hu : Uncut ⟨1, true, false⟩ (afterFirst []) := ⟨by decide, trivial⟩
    rw [List.map_nil, segmentsFrom_uncut hu] at h
    contradiction
  | cons u texts =>
    -- The comma and the start of the next literal belong to the segment.
    have held : Held ⟨1, true, false⟩ [',', ' ', '('] :=
      ⟨⟨by decide, by decide, by decide, trivial⟩, by decide⟩
    have ht : Tight (quote t ++ [',', ' ', '(']) := by
      obtain ⟨c, r, e, hc⟩ := (quote_tight t).first
      exact ⟨⟨c, r ++ [',', ' ', '('], by simp [e], hc⟩,
        ⟨quote t ++ [',', ' '], '(', by simp, by decide⟩⟩
    have e : afterFirst ((u :: texts).map quote) =
        [',', ' ', '('] ++ ('"' :: quoteInString u ++ afterFirst (texts.map quote)) := by
      rw [List.map_cons, afterFirst_cons, joined_cons]
      simp [quote]
    rw [e, segmentsFrom_append held.uncut, held.kept, ← List.reverse_append,
      List.append_assoc] at h
    have hp := (isPrefix_first hb ht h).length_le
    rw [List.length_append] at hp
    simp at hp

theorem inStep_of_segments {texts : List (List Char)} (hb : ∀ t ∈ texts, Braceless t)
    {s : Scanner} (hd : s.depth = 1) (hq : s.quoted = false) (blank : List Char)
    (hblank : AllBlank blank)
    (h : (segmentsFrom true s blank.reverse (joined (texts.map quote) ++ ['\x7d'])).1 =
      texts.map quote) : ∀ t ∈ texts, InStep t := by
  induction texts generalizing s blank with
  | nil => simp
  | cons t texts ih =>
    rw [List.forall_mem_cons] at hb
    have hs : s.AtItem := ⟨by omega, hq⟩
    rw [List.map_cons, joined_cons] at h
    by_cases hu : Uncut s (quote t)
    · have held := Held.of_uncut (braceless_quote hb.1) hs.depth hu
      rw [segmentsFrom_append hu, held.kept, ← List.reverse_append, run_quote hq, hd,
        openBraces_eq_zero hb.1, Int.add_zero] at h
      have commas := (uncut_quote_iff hq hb.1).mp hu
      have inStep : Everywhere
          (fun before c => c = ',' → outOfStep false (before ++ [',']) = false) t :=
        fun before c after e hc => commas before c after e hc hd
      cases ho : outOfStep false t with
      | true =>
        rw [ho] at h
        exact absurd h (ne_first_of_outOfStep hblank t texts _)
      | false =>
        rw [ho] at h
        refine List.forall_mem_cons.mpr ⟨⟨inStep, ho⟩, ?_⟩
        cases texts with
        | nil => simp
        | cons u texts =>
          rw [List.map_cons, afterFirst_cons, segmentsFrom_comma rfl rfl, List.reverse_reverse,
            pushSegment_tight hblank (quote_tight t), List.cons.injEq] at h
          exact ih hb.2 (s := ⟨1, false, false⟩) rfl rfl [' '] (by decide) h.2
    · have hlt := length_first_lt hs hblank (c := '(') ⟨by decide, by decide⟩ hu h
      rw [show '(' :: '"' :: quoteInString t = quote t from rfl] at hlt
      exact absurd hlt (Nat.lt_irrefl _)

/-- Literals of texts without braces come out as they went in exactly if the scanner is in step with
each of them. -/
theorem segments?_quotes_iff {texts : List (List Char)}
    (hb : ∀ t ∈ texts, Braceless t) :
    segments? (listText (texts.map quote)) = some (texts.map quote) ↔ ∀ t ∈ texts, InStep t := by
  constructor
  · intro h
    rw [segments?_listText_eq] at h
    split at h
    · rw [Option.some.injEq] at h
      exact inStep_of_segments hb (s := ⟨1, false, false⟩) rfl rfl [] (by decide) h
    · contradiction
  · intro h
    refine segments?_listText (List.forall_mem_map.mpr fun t ht => ?_)
    exact item_of_inStep (hb t ht) (h t ht)

/-! ## Braces that cancel each other -/

theorem pushSegment_length_le (segment : List Char) (segments : List (List Char)) :
    (pushSegment segment segments).length ≤ segments.length + 1 := by
  rw [pushSegment]
  split
  · omega
  · rw [List.length_cons]

theorem segmentsFrom_length_le (braced : Bool) (s : Scanner) (current text : List Char) :
    (segmentsFrom braced s current text).1.length ≤ text.length := by
  induction text generalizing s current with
  | nil => exact Nat.le_refl 0
  | cons c text ih =>
    rw [segmentsFrom, List.length_cons]
    cases role braced (s.step c) c text.isEmpty with
    | belongs => exact Nat.le_succ_of_le (ih _ _)
    | passed => exact Nat.le_succ_of_le (ih _ _)
    | ends => exact Nat.le_trans (pushSegment_length_le _ _) (Nat.succ_le_succ (ih _ _))
    | endsWithin => exact Nat.le_trans (pushSegment_length_le _ _) (Nat.succ_le_succ (ih _ _))

theorem uncut_comma {s : Scanner} (hd : s.depth ≠ 1) (hq : s.quoted = false) :
    Uncut s [',', ' '] := by
  have e : s.step ',' = { s with afterBackslash := false } := by simp [Scanner.step]
  refine ⟨?_, uncut_inert (by decide) _⟩
  rw [role_comma (by rw [e]; exact hq), if_neg (by rw [e]; exact hd)]
  split <;> simp

theorem segments_length_le {texts : List (List Char)} (hb : ∀ t ∈ texts, '\\' ∉ t)
    (hne : texts ≠ []) {s : Scanner} (hq : s.quoted = false) (current : List Char) :
    (segmentsFrom true s current (joined (texts.map quote) ++ ['\x7d'])).1.length ≤
      texts.length := by
  induction texts generalizing s current with
  | nil => exact absurd rfl hne
  | cons t texts ih =>
    rw [List.forall_mem_cons] at hb
    rw [List.map_cons, joined_cons, segmentsFrom_append (uncut_quote_of_inStep hq hb.1),
      run_quote hq, outOfStep_eq_false hb.1]
    cases texts with
    | nil => exact segmentsFrom_length_le _ _ _ _
    | cons u texts =>
      rw [List.map_cons, afterFirst_cons]
      by_cases hd : s.depth + openBraces t = 1
      · rw [segmentsFrom_comma hd rfl]
        exact Nat.le_trans (pushSegment_length_le _ _)
          (Nat.succ_le_succ (ih hb.2 (by simp) (s := ⟨1, false, false⟩) rfl [' ']))
      · rw [show (',' :: ' ' :: (joined (quote u :: texts.map quote) ++ ['\x7d'])) =
            [',', ' '] ++ (joined ((u :: texts).map quote) ++ ['\x7d']) from rfl,
          segmentsFrom_append (uncut_comma (s := ⟨_, _, _⟩) hd rfl), run_comma]
        exact Nat.le_succ_of_le (ih hb.2 (by simp) (by rfl) _)

/-- After a comma that divides nothing there is room for the remaining items only. -/
theorem segments_length_le_of_comma {texts : List (List Char)} (hb : ∀ t ∈ texts, '\\' ∉ t)
    (hne : texts ≠ []) {s : Scanner} (hd : s.depth ≠ 1) (hq : s.quoted = false)
    (current : List Char) :
    (segmentsFrom true s current (',' :: ' ' :: (joined (texts.map quote) ++ ['\x7d']))).1.length ≤
      texts.length := by
  rw [show ',' :: ' ' :: (joined (texts.map quote) ++ ['\x7d']) =
      [',', ' '] ++ (joined (texts.map quote) ++ ['\x7d']) from rfl,
    segmentsFrom_append (uncut_comma hd hq), run_comma]
  exact segments_length_le hb hne (s := ⟨s.depth, s.quoted, false⟩) hq _

/-- Only at the depth of items does the closing brace balance a list. -/
theorem depth_of_balanced {s final : Scanner} {current : List Char} {segments : List (List Char)}
    (h : segmentsFrom true s current ['\x7d'] = (segments, final))
    (hf : final.isBalanced = true) : s.depth = 1 := by
  have e := segmentsFrom_final true s current ['\x7d']
  rw [h] at e
  rw [show final = s.run ['\x7d'] from e] at hf
  have closed : s.depth - 1 = 0 := (Scanner.isBalanced_iff.mp hf).1
  omega

theorem bracesCancel_of_kept {t : List Char} (hb : '\\' ∉ t) (hz : openBraces t = 0)
    (hu : unquote ('(' :: '"' :: keptString 1 t) = t) : BracesCancel t := by
  have inside := (unquote_kept_iff hb (by omega)).mp hu
  refine ⟨hz, fun before c after e hc => ?_⟩
  have := inside before c after e hc
  omega

theorem kept_tight {t : List Char} (hb : '\\' ∉ t) {depth : Int}
    (h : 1 ≤ depth + openBraces t) : Tight ('(' :: '"' :: keptString depth t) := by
  obtain ⟨k, e⟩ := keptString_concat hb depth h
  rw [e]
  exact Tight.of_ends (by decide) (by decide) ('"' :: k)

theorem bracesCancel_of_segments {texts segments : List (List Char)} (hb : ∀ t ∈ texts, '\\' ∉ t)
    {s final : Scanner} (hd : s.depth = 1) (hq : s.quoted = false) (blank : List Char)
    (hblank : AllBlank blank)
    (h : segmentsFrom true s blank.reverse (joined (texts.map quote) ++ ['\x7d']) =
      (segments, final)) (hfinal : final.isBalanced = true) (hread : segments.map unquote = texts) :
    ∀ t ∈ texts, BracesCancel t := by
  induction texts generalizing s blank segments with
  | nil => simp
  | cons t texts ih =>
    rw [List.forall_mem_cons] at hb
    have current : ((kept s (quote t)).reverse ++ blank.reverse).reverse =
        blank ++ '(' :: '"' :: keptString 1 t := by
      rw [kept_quote hq (by omega), hd]
      simp
    rw [List.map_cons, joined_cons, segmentsFrom_append (uncut_quote_of_inStep hq hb.1),
      run_quote hq, hd, outOfStep_eq_false hb.1] at h
    cases texts with
    | nil =>
      rw [show afterFirst ([].map quote) = ['\x7d'] from rfl] at h
      have hz : openBraces t = 0 := by
        have : 1 + openBraces t = 1 := depth_of_balanced h hfinal
        omega
      rw [hz, Int.add_zero, segmentsFrom_close rfl rfl, current,
        pushSegment_tight hblank (kept_tight hb.1 (by omega)), Prod.mk.injEq] at h
      rw [← h.1, List.map_singleton, List.cons.injEq] at hread
      exact List.forall_mem_singleton.mpr (bracesCancel_of_kept hb.1 hz hread.1)
    | cons u texts =>
      rw [List.map_cons, afterFirst_cons, ← List.map_cons] at h
      by_cases hz : openBraces t = 0
      · rw [hz, Int.add_zero, segmentsFrom_comma rfl rfl, current,
          pushSegment_tight hblank (kept_tight hb.1 (by omega)), Prod.mk.injEq] at h
        obtain ⟨h, hf⟩ := h
        rw [← h, List.map_cons, List.cons.injEq] at hread
        refine List.forall_mem_cons.mpr ⟨bracesCancel_of_kept hb.1 hz hread.1, ?_⟩
        exact ih hb.2 (s := ⟨1, false, false⟩) rfl rfl [' '] (by decide)
          (Prod.ext rfl hf) hread.2
      · -- The comma after the literal divides nothing, and an item is missing in the end.
        have count := segments_length_le_of_comma hb.2 (by simp)
          (s := ⟨1 + openBraces t, false, false⟩) (by simp [hz]) rfl
          ((kept s (quote t)).reverse ++ blank.reverse)
        rw [h] at count
        have hlen := congrArg List.length hread
        simp only [List.length_map, List.length_cons] at hlen count
        omega

/-- The literals of texts without backslashes are read as these texts exactly if the braces of each
cancel each other. -/
theorem segments?_texts_iff {texts : List (List Char)} (hb : ∀ t ∈ texts, '\\' ∉ t) :
    (∃ segments, segments? (listText (texts.map quote)) = some segments ∧
      segments.map unquote = texts) ↔ ∀ t ∈ texts, BracesCancel t := by
  constructor
  · rintro ⟨segments, h, hread⟩
    rw [segments?_listText_eq] at h
    split at h
    · next hf =>
      rw [Option.some.injEq] at h
      exact bracesCancel_of_segments hb (s := ⟨1, false, false⟩) rfl rfl [] (by decide)
        (Prod.ext h rfl) hf hread
    · contradiction
  · intro h
    refine ⟨texts.map quote, segments?_listText (List.forall_mem_map.mpr fun t ht => ?_), ?_⟩
    · exact item_of_bracesCancel (hb t ht) (h t ht)
    · rw [List.map_map]
      exact (List.map_congr_left fun t _ => unquote_quote t).trans (List.map_id texts)

end ScriptBridge.Group
