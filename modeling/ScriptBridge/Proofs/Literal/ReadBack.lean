import ScriptBridge.Proofs.Literal.Parts
/-!
Literals are read back.

The reader cuts a concatenation at each `&` outside of quotes. Nothing inside of a part is such a
place (`splitParts_render`), so the parts come out as they were written, but for the blanks around
the `&`, and each of them reads as its text (`concatenation?_part`). With the parts of a text this
gives the text (`unquote_quote`). A plain literal in quotes is one string part without the
parentheses (`unquote_plain`).
-/
namespace ScriptBridge.Literal

open Text

/-! ## Bodies of string literals -/

theorem unescape_cons {c : Char} (h₁ : c ≠ '\\') (rest : List Char) :
    unescape (c :: rest) = c :: unescape rest := by
  rw [unescape]
  · exact fun h _ => h₁ h
  · exact fun _ _ h _ => h₁ h

theorem unescape_escape_append (s rest : List Char) :
    unescape (escape s ++ rest) = s ++ unescape rest := by
  induction s with
  | nil => rfl
  | cons c s ih =>
    have e : escape (c :: s) = escapeChar c ++ escape s := rfl
    by_cases h : c = '"' ∨ c = '\\'
    · rw [e, escapeChar, if_pos h, List.append_assoc, List.cons_append, List.singleton_append,
        unescape, if_pos h, ih, List.cons_append]
    · rw [e, escapeChar, if_neg h, List.append_assoc, List.singleton_append,
        unescape_cons (by tauto), ih, List.cons_append]

theorem unescape_escape (s : List Char) : unescape (escape s) = s := by
  have h := unescape_escape_append s []
  rwa [List.append_nil, unescape, List.append_nil] at h

/-! ## Cutting at the ampersands -/

/-- The pieces with a text in front of the first. -/
def prependFirst (a : List Char) : List (List Char) → List (List Char)
  | [] => [a]
  | p :: ps => (a ++ p) :: ps

theorem prependFirst_nil {ps : List (List Char)} (h : ps ≠ []) : prependFirst [] ps = ps := by
  cases ps with
  | nil => exact absurd rfl h
  | cons p ps => rfl

theorem prependFirst_append (a b : List Char) (ps : List (List Char)) :
    prependFirst (a ++ b) ps = prependFirst a (prependFirst b ps) := by
  cases ps with
  | nil => rfl
  | cons p ps => simp [prependFirst]

theorem splitParts_ne_nil (inString escaping : Bool) (s : List Char) :
    splitParts inString escaping s ≠ [] := by
  cases s with
  | nil => simp [splitParts]
  | cons c s =>
    unfold splitParts
    split
    · simp
    · simp only
      split <;> simp

theorem exists_pieces (inString escaping : Bool) (s : List Char) :
    ∃ piece pieces, splitParts inString escaping s = piece :: pieces :=
  List.exists_cons_of_ne_nil (splitParts_ne_nil inString escaping s)

theorem splitParts_cons {inString escaping : Bool} {c : Char} (h : ¬(c = '&' ∧ inString = false))
    (rest : List Char) :
    splitParts inString escaping (c :: rest) =
      prependFirst [c] (splitParts (if c = '"' ∧ escaping = false then !inString else inString)
        (c = '\\' && !escaping) rest) := by
  rw [splitParts, if_neg h]
  simp only
  split
  · next hn => exact absurd hn (splitParts_ne_nil _ _ _)
  · next part more hm => rw [hm]; rfl

theorem splitParts_cut (escaping : Bool) (rest : List Char) :
    splitParts false escaping ('&' :: rest) = [] :: splitParts false false rest := by
  rw [splitParts, if_pos ⟨rfl, rfl⟩]

theorem splitParts_escapeChar (c : Char) (rest : List Char) :
    splitParts true false (escapeChar c ++ rest) =
      prependFirst (escapeChar c) (splitParts true false rest) := by
  unfold escapeChar
  by_cases h : c = '"' ∨ c = '\\'
  · rw [if_pos h, List.cons_append, List.singleton_append, splitParts_cons (by simp),
      splitParts_cons (by simp), show ['\\', c] = ['\\'] ++ [c] from rfl, prependFirst_append]
    simp
  · rw [if_neg h, List.singleton_append, splitParts_cons (by simp)]
    rw [not_or] at h
    simp [h.1, h.2]

theorem splitParts_escape (run rest : List Char) :
    splitParts true false (escape run ++ rest) =
      prependFirst (escape run) (splitParts true false rest) := by
  induction run with
  | nil =>
    rw [show escape [] = [] from rfl, List.nil_append, prependFirst_nil (splitParts_ne_nil _ _ _)]
  | cons c run ih =>
    rw [show escape (c :: run) = escapeChar c ++ escape run from rfl, List.append_assoc,
      splitParts_escapeChar, ih, prependFirst_append]

/-- Whether a character neither cuts a concatenation nor has to do with quotes. -/
def isNeutral (c : Char) : Bool := c != '&' && c != '"' && c != '\\'

theorem splitParts_neutral {a : List Char} (ha : ∀ c ∈ a, isNeutral c = true) (rest : List Char) :
    splitParts false false (a ++ rest) = prependFirst a (splitParts false false rest) := by
  induction a with
  | nil =>
    rw [List.nil_append, prependFirst_nil (splitParts_ne_nil _ _ _)]
  | cons c a ih =>
    have hc := ha c List.mem_cons_self
    simp only [isNeutral, Bool.and_eq_true, bne_iff_ne, ne_eq] at hc
    obtain ⟨⟨h₁, h₂⟩, h₃⟩ := hc
    rw [List.cons_append, splitParts_cons (by simp [h₁]), if_neg (by simp [h₂])]
    simp only [h₃, decide_false, Bool.false_and]
    rw [ih (fun x hx => ha x (List.mem_cons_of_mem c hx)), ← prependFirst_append]
    rfl

theorem unicodeText_neutral (run : List Char) : ∀ c ∈ unicodeText run, isNeutral c = true := by
  intro c hc
  simp only [unicodeText, List.mem_append] at hc
  rcases hc with (hc | hc) | hc
  · exact List.all_eq_true.mp (by decide : dataOpening.all isNeutral = true) c hc
  · exact Hex.forall_mem_lower (P := fun c => isNeutral c = true) (by decide) _ c hc
  · exact List.all_eq_true.mp (by decide : dataClosing.all isNeutral = true) c hc

/-- Nothing inside of a part is a cut, and after it no string literal is open. -/
theorem splitParts_render (p : Part) (rest : List Char) :
    splitParts false false (p.render ++ rest) =
      prependFirst p.render (splitParts false false rest) := by
  cases p with
  | string run =>
    have opening : splitParts false false ('"' :: (escape run ++ '"' :: rest)) =
        prependFirst ['"'] (splitParts true false (escape run ++ '"' :: rest)) :=
      splitParts_cons (by simp) _
    have closing : splitParts true false ('"' :: rest) =
        prependFirst ['"'] (splitParts false false rest) := splitParts_cons (by simp) _
    have e : (Part.string run).render ++ rest = '"' :: (escape run ++ '"' :: rest) := by
      simp [Part.render]
    rw [e, opening, splitParts_escape, closing, ← prependFirst_append, ← prependFirst_append]
    rfl
  | data run => exact splitParts_neutral (unicodeText_neutral run) rest

/-! ## Reading the parts -/

theorem render_tight (p : Part) : Tight p.render := by
  cases p with
  | string run => exact Tight.of_ends (by decide) (by decide) _
  | data run =>
    have closing : dataClosing.dropLast ++ [')'] = dataClosing := by decide
    refine ⟨⟨'(', dataOpening.tail ++ Hex.lower (Utf8.encode run) ++ dataClosing, rfl, by decide⟩,
      ⟨dataOpening ++ Hex.lower (Utf8.encode run) ++ dataClosing.dropLast, ')', ?_, by decide⟩⟩
    rw [List.append_assoc, closing]
    rfl

theorem partText?_render (p : Part) : partText? p.render = some p.text := by
  cases p with
  | string run =>
    have h : stringBody? (Part.string run).render = some (escape run) :=
      between?_append ['"'] (escape run) ['"']
    simp only [partText?, h, unescape_escape, Part.text]
  | data run =>
    -- A data part starts with a parenthesis, so it is not taken for a string part.
    have h : stringBody? (Part.data run).render = none :=
      between?_none_of_head (by decide) _ _ _
    have hd : between? dataOpening dataClosing (Part.data run).render =
        some (Hex.lower (Utf8.encode run)) := between?_append _ _ _
    simp only [partText?, h, dataText?, hd, Option.bind_some, Hex.bytes?_lower,
      Utf8.decode?_encode, Part.text]

/-- The text of the pieces of a concatenation, if each of them is a literal. -/
def readPieces (pieces : List (List Char)) : Option (List Char) :=
  (pieces.mapM fun piece => partText? (trim piece)).map List.flatten

theorem concatenation?_eq (s : List Char) :
    concatenation? s = readPieces (splitParts false false s) := rfl

theorem readPieces_cons (piece : List Char) (pieces : List (List Char)) :
    readPieces (piece :: pieces) =
      (partText? (trim piece)).bind fun text => (readPieces pieces).map (text ++ ·) := by
  rw [readPieces, readPieces, List.mapM_cons]
  cases partText? (trim piece) with
  | none => rfl
  | some text =>
    cases pieces.mapM fun piece => partText? (trim piece) <;> rfl

theorem readPieces_prependFirst_blank {w : List Char} (hw : AllBlank w) {ps : List (List Char)}
    (h : ps ≠ []) : readPieces (prependFirst w ps) = readPieces ps := by
  cases ps with
  | nil => exact absurd rfl h
  | cons p ps => rw [prependFirst, readPieces_cons, readPieces_cons, trim_blank_append hw]

theorem concatenation?_render (p : Part) : concatenation? p.render = some p.text := by
  have h := splitParts_render p []
  rw [List.append_nil] at h
  rw [concatenation?_eq, h, splitParts, prependFirst, readPieces_cons, List.append_nil,
    (render_tight p).trim_eq, partText?_render]
  simp [readPieces]

theorem concatenation?_part (p : Part) (rest : List Char) :
    concatenation? (p.render ++ (ampersand ++ rest)) = (concatenation? rest).map (p.text ++ ·) := by
  have blank : AllBlank [' '] := by decide
  -- One blank goes to the part before the ampersand and one to what follows.
  have after : splitParts false false (ampersand ++ rest) =
      [' '] :: prependFirst [' '] (splitParts false false rest) := by
    rw [show ampersand ++ rest = ' ' :: '&' :: ' ' :: rest from rfl,
      splitParts_cons (by simp), if_neg (by simp),
      show (decide (' ' = '\\') && !false) = false by decide, splitParts_cut,
      splitParts_cons (by simp)]
    rfl
  rw [concatenation?_eq, splitParts_render, after, prependFirst, readPieces_cons,
    trim_append_blank blank, (render_tight p).trim_eq, partText?_render, Option.bind_some,
    readPieces_prependFirst_blank blank (splitParts_ne_nil _ _ _)]
  rfl

theorem concatenation?_join (p : Part) (ps : List Part) :
    concatenation? (join (p :: ps)) = some ((p :: ps).flatMap Part.text) := by
  induction ps generalizing p with
  | nil =>
    rw [show join [p] = p.render from rfl, concatenation?_render]
    simp
  | cons q ps ih =>
    rw [join_cons, List.append_assoc, concatenation?_part, ih]
    simp

theorem join_tight (p : Part) (ps : List Part) : Tight (join (p :: ps)) := by
  induction ps generalizing p with
  | nil => exact render_tight p
  | cons q ps ih =>
    obtain ⟨c, r, hf, hc⟩ := (render_tight p).first
    obtain ⟨t, d, hl, hd⟩ := (ih q).last
    rw [join_cons]
    exact ⟨⟨c, r ++ ampersand ++ join (q :: ps), by simp [hf], hc⟩,
      ⟨p.render ++ ampersand ++ t, d, by simp [hl], hd⟩⟩

theorem quote_tight (s : List Char) : Tight (quote s) := by
  rw [quote_eq_join]
  exact Tight.of_ends (by decide) (by decide) _

/-! ## Reading literals -/

/-- A literal reads as its text. -/
theorem unquote_quote (s : List Char) : unquote (quote s) = s := by
  have hb : between? ['('] [')'] (quote s) = some (join (parts s)) := by
    rw [quote_eq_join]
    exact between?_append ['('] _ [')']
  obtain ⟨run, ps, h⟩ := partsInString_head s
  have ht : concatenation? (trim (join (parts s))) = some s := by
    rw [parts, h, (join_tight _ _).trim_eq, concatenation?_join, ← h]
    exact congrArg some (flatMap_text_parts s)
  simp only [unquote, (quote_tight s).trim_eq, hb, Option.bind_some, ht]

theorem unquote_plain (s : List Char) : unquote ('"' :: escape s ++ ['"']) = s := by
  have ht : Tight ('"' :: escape s ++ ['"']) := Tight.of_ends (by decide) (by decide) _
  have hn : between? ['('] [')'] ('"' :: escape s ++ ['"']) = none :=
    between?_none_of_head (by decide) _ _ _
  have hs : stringBody? ('"' :: escape s ++ ['"']) = some (escape s) :=
    between?_append ['"'] (escape s) ['"']
  simp only [unquote, ht.trim_eq, hn, hs, Option.bind_none, unescape_escape]

theorem unquote_surrounded {before after : List Char} (hb : AllBlank before) (ha : AllBlank after)
    (s : List Char) : unquote (before ++ s ++ after) = unquote s := by
  simp only [unquote, trim_surrounded hb ha]

/-- Both spellings of a text, the literal and the plain one in quotes, read as that text, whatever
white space stands around them. -/
theorem unquote_literals {before after : List Char} (hb : AllBlank before) (ha : AllBlank after)
    (s : List Char) :
    unquote (before ++ quote s ++ after) = s ∧
      unquote (before ++ ('"' :: escape s ++ ['"']) ++ after) = s := by
  rw [unquote_surrounded hb ha, unquote_surrounded hb ha]
  exact ⟨unquote_quote s, unquote_plain s⟩

/-- Quotes, backslashes, an ampersand and two runs beyond ASCII, between blanks of both kinds. -/
theorem unquote_literals_mixed :
    AllBlank "\u00a0\t".toList ∧ AllBlank "\n ".toList ∧
      unquote ("\u00a0\t".toList ++ quote "é\\\" & «\\".toList ++ "\n ".toList) =
        "é\\\" & «\\".toList ∧
      unquote ("\u00a0\t".toList ++ ('"' :: escape "é\\\" & «\\".toList ++ ['"']) ++
        "\n ".toList) = "é\\\" & «\\".toList :=
  have before : AllBlank "\u00a0\t".toList := by decide
  have after : AllBlank "\n ".toList := by decide
  ⟨before, after, unquote_literals before after "é\\\" & «\\".toList⟩

end ScriptBridge.Literal
