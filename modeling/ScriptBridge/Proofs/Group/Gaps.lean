import ScriptBridge.Proofs.Group.Kept
import ScriptBridge.Proofs.Literal.Inverted
/-!
What a literal with gaps reads as.

Where a text closes more braces than are open, the scanner passes over what stands outside of quotes
until enough of them are open again. Of the characters written as data there nothing is left, and of
the quotes around them only the one that opens the next string part, so that part is read inverted
(`inverted_keptString`). The character that follows the gap in the text that is read is then another
one than in the text that was written, and a literal without backslashes reads as its text only if
it has no gap (`unquote_kept_iff`).
-/
namespace ScriptBridge.Group

open Text Literal

/-! ## Ends of what is kept -/

/-- If the scanner is inside of the group at the end of a text, the rest of its literal is kept up
to the parenthesis, and before that stands no white space. -/
theorem kept_ends {t : List Char} (hb : '\\' ∉ t) :
    (∀ depth, 1 ≤ depth + openBraces t →
      ∃ k c, keptString depth t = k ++ [c] ++ [')'] ∧ isBlank c = false) ∧
    (∀ depth, 1 ≤ depth + openBraces t →
      ∃ k c, keptData depth t = k ++ [c] ++ [')'] ∧ isBlank c = false) := by
  induction t with
  | nil =>
    constructor
    · intro depth h
      rw [openBraces] at h
      rw [keptString_nil, ifInside, if_pos (by omega)]
      exact ⟨[], '"', rfl, by decide⟩
    · intro depth h
      rw [openBraces] at h
      rw [keptData_nil, ifInside, if_pos (by omega)]
      exact ⟨dataClosing.dropLast, ')', by decide, by decide⟩
  | cons c t ih =>
    rw [List.mem_cons, not_or] at hb
    obtain ⟨hs, hd⟩ := ih hb.2
    have hne := Ne.symm hb.1
    -- Whatever is kept of the first character stands in front of what is kept of the others.
    have front (a : List Char) {b : List Char}
        (hk : ∃ k e, b = k ++ [e] ++ [')'] ∧ isBlank e = false) :
        ∃ k e, a ++ b = k ++ [e] ++ [')'] ∧ isBlank e = false := by
      obtain ⟨k, e, rfl, he⟩ := hk
      exact ⟨a ++ k, e, by simp, he⟩
    cases hc : isPlain c with
    | true =>
      constructor
      · intro depth h
        rw [openBraces] at h
        rw [keptString_plain depth t hc hne]
        exact front _ (hs _ (by omega))
      · intro depth h
        rw [openBraces] at h
        rw [keptData_plain depth t hc hne, ← List.cons_append, ← List.append_assoc]
        exact front _ (hs _ (by omega))
    | false =>
      have hbrace := brace_of_not_plain hc
      constructor
      · intro depth h
        rw [openBraces] at h
        rw [keptString_other depth t hc]
        exact front _ (hd _ (by omega))
      · intro depth h
        rw [openBraces] at h
        rw [keptData_other depth t hc]
        exact front _ (hd _ (by omega))

theorem keptString_concat {t : List Char} (hb : '\\' ∉ t) (depth : Int)
    (h : 1 ≤ depth + openBraces t) : ∃ k, keptString depth t = k ++ [')'] := by
  obtain ⟨k, c, e, -⟩ := (kept_ends hb).1 depth h
  exact ⟨k ++ [c], e⟩

theorem keptData_concat {t : List Char} (hb : '\\' ∉ t) (depth : Int)
    (h : 1 ≤ depth + openBraces t) : ∃ k, keptData depth t = k ++ [')'] := by
  obtain ⟨k, c, e, -⟩ := (kept_ends hb).2 depth h
  exact ⟨k ++ [c], e⟩

/-! ## After a gap -/

theorem escapeChar_head {c : Char} (hc : isPlain c = true) :
    ∃ x r, escapeChar c = x :: r ∧ isPlain x = true ∧ x ≠ '"' := by
  unfold escapeChar
  split
  · exact ⟨'\\', [c], rfl, by decide, by decide⟩
  · next h => exact ⟨c, [], rfl, hc, fun e => h (Or.inl e)⟩

/-- Outside of the group nothing of a data part is kept, up to the quote that opens the next string
part. -/
theorem keptData_outside {t : List Char} (hb : '\\' ∉ t) {depth : Int} (hd : depth < 1) :
    (keptData depth t = [] ∧ openBraces t = 0) ∨
      ∃ c u, isPlain c = true ∧ '\\' ∉ c :: u ∧ openBraces t = openBraces (c :: u) ∧
        keptData depth t = '"' :: keptString depth (c :: u) := by
  induction t with
  | nil => exact Or.inl ⟨by rw [keptData_nil, ifInside, if_neg (by omega)], rfl⟩
  | cons c t ih =>
    have hmem := hb
    rw [List.mem_cons, not_or] at hmem
    cases hc : isPlain c with
    | true =>
      refine Or.inr ⟨c, t, hc, hb, rfl, ?_⟩
      rw [keptData_plain depth t hc (Ne.symm hmem.1), keptString_plain depth t hc (Ne.symm hmem.1),
        ifInside, if_neg (by omega), List.nil_append]
    | false =>
      rw [keptData_other depth t hc, ifInside, if_neg (by omega), List.nil_append, openBraces,
        brace_of_not_plain hc, Int.zero_add]
      exact ih hmem.2

theorem keptString_head {c : Char} {t : List Char} (hb : '\\' ∉ c :: t) (hc : isPlain c = true)
    (depth : Int) : ∃ x r, keptString depth (c :: t) = x :: r ∧ isPlain x = true ∧ x ≠ '"' := by
  rw [List.mem_cons, not_or] at hb
  obtain ⟨x, r, e, hx⟩ := escapeChar_head hc
  rw [keptString_plain depth t hc (Ne.symm hb.1), e]
  exact ⟨x, r ++ keptString (depth + brace c) t, rfl, hx⟩

theorem plainHead_keptString {t : List Char} (hb : '\\' ∉ t) (depth : Int) :
    PlainHead (keptString depth t) := by
  have mark (s : List Char) : PlainHead ('"' :: s) := .cons (by decide) s
  cases t with
  | nil =>
    rw [keptString_nil, ifInside]
    split
    · exact mark _
    · exact .nil
  | cons c t =>
    cases hc : isPlain c with
    | true =>
      obtain ⟨x, r, e, hx, -⟩ := keptString_head hb hc depth
      rw [e]
      exact .cons hx r
    | false =>
      rw [List.mem_cons, not_or] at hb
      rw [keptString_other depth t hc, ifInside]
      split
      · exact mark _
      · next hd =>
        rw [List.nil_append]
        rcases keptData_outside hb.2 (show depth < 1 by omega) with ⟨e, -⟩ | ⟨d, u, -, -, -, e⟩
        · rw [e]
          exact .nil
        · rw [e]
          exact mark _

/-- What is kept of a string part is read inverted if its first quote is taken for the end of
another part. -/
theorem inverted_keptString {t : List Char} (hb : '\\' ∉ t) {depth : Int}
    (h : 1 ≤ depth + openBraces t) {k : List Char} (hk : keptString depth t = k ++ [')']) :
    Inverted k := by
  induction t generalizing depth k with
  | nil =>
    rw [openBraces] at h
    rw [keptString_nil, ifInside, if_pos (by omega),
      show ['"', ')'] = ['"'] ++ [')'] from rfl] at hk
    rw [← List.append_cancel_right hk]
    exact .mark (by simp)
  | cons c t ih =>
    have hmem := hb
    rw [List.mem_cons, not_or] at hmem
    have hne := Ne.symm hmem.1
    rw [openBraces] at h
    cases hc : isPlain c with
    | true =>
      obtain ⟨rest, hrest⟩ := keptString_concat hmem.2 (depth + brace c) (by omega)
      rw [keptString_plain depth t hc hne, hrest, ← List.append_assoc] at hk
      rw [← List.append_cancel_right hk]
      have tail : Inverted rest := ih hmem.2 (by omega) hrest
      have head : PlainHead rest :=
        (plainHead_keptString hmem.2 (depth + brace c)).of_isPrefix ⟨[')'], hrest.symm⟩
      by_cases hm : c = '"'
      · subst hm
        exact .other (by decide) (by decide) (by decide) (.cons (by decide) rest)
      · rw [escapeChar, if_neg (by tauto), List.singleton_append]
        by_cases ha : c = '&'
        · subst ha
          exact .cut tail
        · cases hw : isBlank c with
          | true => exact .blank hw tail
          | false => exact .other hw hm ha head
    | false =>
      rw [brace_of_not_plain hc] at h
      rw [keptString_other depth t hc] at hk
      by_cases hd : 1 ≤ depth
      · -- The part ends here, and its quote opens a part for the reader.
        obtain ⟨rest, hrest⟩ := keptData_concat hmem.2 depth (by omega)
        rw [ifInside, if_pos hd, hrest, ← List.append_assoc] at hk
        rw [← List.append_cancel_right hk]
        refine .mark fun x hx => ?_
        obtain rfl : ' ' = x := by simpa [opensData] using hx
        decide
      · -- The part's end is in a gap, and the next quote opens a part for the reader.
        rw [ifInside, if_neg hd, List.nil_append] at hk
        rcases keptData_outside hmem.2 (show depth < 1 by omega) with
          ⟨-, e⟩ | ⟨d, u, hd', hu, e, hk'⟩
        · omega
        · obtain ⟨rest, hrest⟩ := keptString_concat hu depth (by omega)
          obtain ⟨x, r, hx, hp⟩ := keptString_head hu hd' depth
          rw [hk', hrest, ← List.cons_append] at hk
          rw [← List.append_cancel_right hk]
          refine .mark fun y hy => ?_
          cases rest with
          | nil => simp at hy
          | cons z rest =>
            rw [hrest, List.cons_append, List.cons.injEq] at hx
            obtain rfl : z = y := by simpa using hy
            exact hx.1 ▸ hp

/-! ## Reading what is kept -/

/-- A part does not make up for what follows it. -/
theorem concatenation?_part_ne (p : Part) {rest text : List Char}
    (h : concatenation? rest ≠ some text) :
    concatenation? (p.render ++ (ampersand ++ rest)) ≠ some (p.text ++ text) := by
  rw [concatenation?_part]
  intro hr
  rw [Option.map_eq_some_iff] at hr
  obtain ⟨read, hr, e⟩ := hr
  exact h (by rw [hr, List.append_cancel_left e])

/-- Where a character is in a gap, the reader finds an ASCII character in its place. -/
theorem concatenation?_lost {c : Char} (hc : isPlain c = false) {t : List Char} (hb : '\\' ∉ t)
    {depth : Int} (hd : ¬1 ≤ depth) (h : 1 ≤ depth + openBraces t) {k : List Char}
    (hk : keptData depth t = k ++ [')']) (run : List Char) :
    concatenation? ('"' :: (escape run ++ k)) ≠ some (run ++ c :: t) := by
  rcases keptData_outside hb (show depth < 1 by omega) with ⟨-, e⟩ | ⟨d, u, -, hu, e, hk'⟩
  · omega
  · obtain ⟨rest, hrest⟩ := keptString_concat hu depth (by omega)
    have inverted := inverted_keptString hu (by omega) hrest
    rw [hk', hrest, ← List.cons_append] at hk
    have e : '"' :: (escape run ++ k) = (Part.string run).render ++ rest := by
      rw [← List.append_cancel_right hk]
      simp [Part.render]
    rw [e]
    intro hr
    obtain ⟨x, r, ht, hx⟩ := inverted.after_string hr
    have hxc := (List.cons.inj (List.append_cancel_left ht)).1
    rw [← hxc, hc] at hx
    exact absurd hx (by decide)

/-- What is kept of the rest of a literal does not read as the rest of the text if it has a gap,
whatever the part has begun with. -/
theorem concatenation?_gap {t : List Char} (hb : '\\' ∉ t) :
    (∀ depth run k, 1 ≤ depth + openBraces t → ¬DataInside depth t →
      keptString depth t = k ++ [')'] →
      concatenation? ('"' :: (escape run ++ k)) ≠ some (run ++ t)) ∧
    (∀ depth run k, 1 ≤ depth → 1 ≤ depth + openBraces t → ¬DataInside depth t →
      keptData depth t = k ++ [')'] →
      concatenation? (dataOpening ++ (Hex.lower (Utf8.encode run) ++ k)) ≠ some (run ++ t)) := by
  induction t with
  | nil =>
    have inside (depth : Int) : DataInside depth [] := everywhere_nil _
    exact ⟨fun depth _ _ _ hg _ => absurd (inside depth) hg,
      fun depth _ _ _ _ hg _ => absurd (inside depth) hg⟩
  | cons c t ih =>
    rw [List.mem_cons, not_or] at hb
    obtain ⟨hs, hdata⟩ := ih hb.2
    have hne := Ne.symm hb.1
    have tail {depth : Int} (hc : isPlain c = false → 1 ≤ depth) (hg : ¬DataInside depth (c :: t)) :
        ¬DataInside (depth + brace c) t := fun h => hg (dataInside_cons.mpr ⟨hc, h⟩)
    cases hc : isPlain c with
    | true =>
      have hp : isPlain c = false → False := by simp [hc]
      constructor
      · intro depth run k h hg hk
        rw [openBraces] at h
        obtain ⟨rest, hrest⟩ := keptString_concat hb.2 (depth + brace c) (by omega)
        rw [keptString_plain depth t hc hne, hrest, ← List.append_assoc] at hk
        have step := hs _ (run ++ [c]) rest (by omega) (tail (fun h => (hp h).elim) hg) hrest
        rw [← List.append_cancel_right hk]
        simpa [escape] using step
      · intro depth run k hd h hg hk
        rw [openBraces] at h
        obtain ⟨rest, hrest⟩ := keptString_concat hb.2 (depth + brace c) (by omega)
        rw [keptData_plain depth t hc hne, ifInside, if_pos hd, hrest] at hk
        have step := hs _ [c] rest (by omega) (tail (fun _ => hd) hg) hrest
        have hk : closesData ++ '"' :: (escape [c] ++ rest) ++ [')'] = k ++ [')'] := by
          rw [← hk]
          simp [escape]
        have e : dataOpening ++ (Hex.lower (Utf8.encode run) ++ k) =
            (Part.data run).render ++ (ampersand ++ '"' :: (escape [c] ++ rest)) := by
          rw [← List.append_cancel_right hk]
          simp [Part.render, unicodeText, closesData, ampersand]
        rw [e]
        exact concatenation?_part_ne (.data run) step
    | false =>
      have hbrace := brace_of_not_plain hc
      constructor
      · intro depth run k h hg hk
        rw [openBraces, hbrace, Int.zero_add] at h
        rw [keptString_other depth t hc] at hk
        by_cases hd : 1 ≤ depth
        · obtain ⟨rest, hrest⟩ := keptData_concat hb.2 depth h
          have hg := tail (fun _ => hd) hg
          rw [hbrace, Int.add_zero] at hg
          rw [ifInside, if_pos hd, hrest, ← List.append_assoc] at hk
          have step := hdata depth [c] rest hd h hg hrest
          have e : '"' :: (escape run ++ k) = (Part.string run).render ++
              (ampersand ++ (dataOpening ++ (Hex.lower (Utf8.encode [c]) ++ rest))) := by
            rw [← List.append_cancel_right hk]
            simp [Part.render, opensData, ampersand, Utf8.encode]
          rw [e]
          exact concatenation?_part_ne (.string run) step
        · rw [ifInside, if_neg hd, List.nil_append] at hk
          exact concatenation?_lost hc hb.2 hd h hk run
      · intro depth run k hd h hg hk
        rw [openBraces, hbrace, Int.zero_add] at h
        obtain ⟨rest, hrest⟩ := keptData_concat hb.2 depth h
        have hg := tail (fun _ => hd) hg
        rw [hbrace, Int.add_zero] at hg
        rw [keptData_other depth t hc, ifInside, if_pos hd, hrest, ← List.append_assoc] at hk
        have step := hdata depth (run ++ [c]) rest hd h hg hrest
        rw [← List.append_cancel_right hk]
        simpa [Hex.lower, Utf8.encode] using step

theorem backslash_of_mark {t : List Char} (hb : '\\' ∉ t) (hm : '"' ∈ t) :
    (∀ depth, '\\' ∈ keptString depth t) ∧ (∀ depth, '\\' ∈ keptData depth t) := by
  induction t with
  | nil => simp at hm
  | cons c t ih =>
    rw [List.mem_cons, not_or] at hb
    by_cases hq : c = '"'
    · subst hq
      have he : '\\' ∈ escapeChar '"' := by decide
      constructor
      · intro depth
        rw [keptString_plain depth t (by decide) (by decide)]
        exact List.mem_append_left _ he
      · intro depth
        rw [keptData_plain depth t (by decide) (by decide)]
        exact List.mem_append_right _ (List.mem_cons_of_mem _ (List.mem_append_left _ he))
    · have hm : '"' ∈ t := by simpa [Ne.symm hq] using hm
      obtain ⟨hs, hd⟩ := ih hb.2 hm
      cases hc : isPlain c with
      | true =>
        constructor
        · intro depth
          rw [keptString_plain depth t hc (Ne.symm hb.1)]
          exact List.mem_append_right _ (hs _)
        · intro depth
          rw [keptData_plain depth t hc (Ne.symm hb.1)]
          exact List.mem_append_right _ (List.mem_cons_of_mem _ (List.mem_append_right _ (hs _)))
      | false =>
        constructor
        · intro depth
          rw [keptString_other depth t hc]
          exact List.mem_append_right _ (hd _)
        · intro depth
          rw [keptData_other depth t hc]
          exact List.mem_append_right _ (hd _)

/-- What is kept of a literal reads as the text exactly if it has no gap. -/
theorem unquote_kept_iff {t : List Char} (hb : '\\' ∉ t) {depth : Int}
    (h : 1 ≤ depth + openBraces t) :
    unquote ('(' :: '"' :: keptString depth t) = t ↔ DataInside depth t := by
  constructor
  · intro hu
    by_contra hg
    obtain ⟨k, c, hk, hc⟩ := (kept_ends hb).1 depth h
    have step := (concatenation?_gap hb).1 depth [] (k ++ [c]) h hg hk
    have inner : Tight ('"' :: k ++ [c]) := Tight.of_ends (by decide) hc k
    have whole : Tight ('(' :: '"' :: (k ++ [c] ++ [')'])) :=
      Tight.of_ends (by decide) (by decide) ('"' :: k ++ [c])
    have hm : between? ['('] [')'] ('(' :: '"' :: (k ++ [c] ++ [')'])) = some ('"' :: k ++ [c]) :=
      between?_append ['('] ('"' :: k ++ [c]) [')']
    have hs : stringBody? ('(' :: '"' :: (k ++ [c] ++ [')'])) = none :=
      between?_none_of_head (by decide) _ _ _
    rw [hk] at hu
    simp only [unquote, whole.trim_eq, hm, Option.bind_some, inner.trim_eq, hs] at hu
    cases hr : concatenation? ('"' :: k ++ [c]) with
    | some text =>
      rw [hr] at hu
      exact step (hr.trans (congrArg some hu))
    | none =>
      -- A text that stands for itself has its own quotes as they are.
      rw [hr] at hu
      have hq : '"' ∈ t := hu ▸ by simp
      have hin := (backslash_of_mark hb hq).1 depth
      rw [hk] at hin
      exact hb (hu ▸ List.mem_cons_of_mem _ (List.mem_cons_of_mem _ hin))
  · intro hg
    rw [(kept_of_staysInside hb).1 depth ⟨hg, h⟩]
    exact unquote_quote t

end ScriptBridge.Group
