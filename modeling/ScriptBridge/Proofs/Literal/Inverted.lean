import ScriptBridge.Proofs.Literal.ReadBack
/-!
Concatenations read with their quotes inverted.

If the quote that closes a string part is lost, the reader takes the next one, which opens another
part, for it, and reads the inside of that part as the outside. `Inverted` says what such a text can
look like from there on. It may be no concatenation at all; if it is one, its text starts with an
ASCII character (`Inverted.startsPlain`), and so what follows the string part in the text that is
read is ASCII (`Inverted.after_string`), whatever it was in the text that was written.
-/
namespace ScriptBridge.Literal

open Text

/-! ## Pieces that cannot start with anything else -/

/-- Whether the first character of a text, if there is one, may stand in a string literal. -/
def PlainHead (s : List Char) : Prop := ∀ c ∈ s.head?, isPlain c = true

theorem PlainHead.nil : PlainHead [] := fun _ h => nomatch h

theorem PlainHead.cons {c : Char} (hc : isPlain c = true) (s : List Char) : PlainHead (c :: s) := by
  intro x hx
  obtain rfl : c = x := by simpa using hx
  exact hc

theorem PlainHead.of_isPrefix {p s : List Char} (hs : PlainHead s) (hp : p <+: s) :
    PlainHead p := by
  obtain ⟨r, rfl⟩ := hp
  intro c hc
  cases p with
  | nil => simp at hc
  | cons x p => exact hs c (by simpa using hc)

/-- Whether a text, if one is read, starts with a character that may stand in a string literal. -/
def StartsPlain (read : Option (List Char)) : Prop :=
  ∀ text, read = some text → ∃ c rest, text = c :: rest ∧ isPlain c = true

theorem StartsPlain.none : StartsPlain none := fun _ h => nomatch h

/-- Nothing changes about the start of a text if more is read after it. -/
theorem StartsPlain.readPieces_cons {piece : List Char} (h : StartsPlain (partText? (trim piece)))
    (pieces : List (List Char)) : StartsPlain (readPieces (piece :: pieces)) := by
  intro text ht
  rw [Literal.readPieces_cons, Option.bind_eq_some_iff] at ht
  obtain ⟨first, hf, ht⟩ := ht
  rw [Option.map_eq_some_iff] at ht
  obtain ⟨more, -, rfl⟩ := ht
  obtain ⟨c, rest, rfl, hc⟩ := h first hf
  exact ⟨c, rest ++ more, rfl, hc⟩

theorem splitParts_first {inString escaping : Bool} {s piece : List Char}
    {pieces : List (List Char)} (h : splitParts inString escaping s = piece :: pieces) :
    piece <+: s := by
  induction s generalizing inString escaping piece pieces with
  | nil =>
    rw [splitParts, List.cons.injEq] at h
    exact h.1 ▸ List.prefix_rfl
  | cons c s ih =>
    by_cases hc : c = '&' ∧ inString = false
    · rw [splitParts, if_pos hc, List.cons.injEq] at h
      rw [← h.1]
      exact List.nil_prefix
    · rw [splitParts_cons hc] at h
      obtain ⟨p, ps, hp⟩ := exists_pieces
        (if c = '"' ∧ escaping = false then !inString else inString) (c = '\\' && !escaping) s
      rw [hp, prependFirst, List.cons.injEq] at h
      rw [← h.1]
      exact List.prefix_cons_inj c |>.mpr (ih hp)

theorem dataText?_mark (s : List Char) : dataText? ('"' :: s) = none := by
  rw [dataText?, show dataOpening = '(' :: dataOpening.tail from rfl,
    between?_none_of_head (by decide), Option.bind_none]

theorem partText?_mark (s : List Char) :
    partText? ('"' :: s) = (stringBody? ('"' :: s)).map unescape := by
  unfold partText?
  rw [dataText?_mark]
  cases stringBody? ('"' :: s) <;> rfl

theorem partText?_eq_none {c : Char} (hc : c ≠ '"') {s : List Char} (hs : PlainHead s) :
    partText? (c :: s) = none := by
  have hb : stringBody? (c :: s) = none := between?_none_of_head (Ne.symm hc) _ _ _
  have hd : between? dataOpening dataClosing (c :: s) = none := by
    cases hm : between? dataOpening dataClosing (c :: s) with
    | none => rfl
    | some middle =>
      -- The second character of what data literals start with may not stand in a string literal.
      have h := between?_iff.mp hm
      rw [show dataOpening = '(' :: '«' :: dataOpening.tail.tail from by decide] at h
      simp only [List.cons_append, List.cons.injEq] at h
      have := hs '«' (by rw [h.2]; rfl)
      exact absurd this (by decide)
  simp only [partText?, hb, dataText?, hd, Option.bind_none]

theorem startsPlain_unescape {c : Char} (hc : isPlain c = true) (s : List Char) :
    ∃ d rest, unescape (c :: s) = d :: rest ∧ isPlain d = true := by
  by_cases h : c = '\\'
  · subst h
    cases s with
    | nil => exact ⟨'\\', [], rfl, hc⟩
    | cons d s =>
      rw [unescape]
      split
      · next hd => exact ⟨d, unescape s, rfl, by rcases hd with rfl | rfl <;> decide⟩
      · exact ⟨'\\', d :: unescape s, rfl, hc⟩
  · exact ⟨c, unescape s, unescape_cons h s, hc⟩

theorem startsPlain_partText? {c : Char} (hc : isPlain c = true) (hm : c ≠ '"') (s : List Char) :
    StartsPlain (partText? (trim ('"' :: c :: s))) := by
  have ht : trim ('"' :: c :: s) = '"' :: trimEnd (c :: s) :=
    (Tight.singleton (by decide)).trim_append (c :: s)
  intro text hr
  rw [ht, partText?_mark, Option.map_eq_some_iff] at hr
  obtain ⟨body, hb, rfl⟩ := hr
  have hb : trimEnd (c :: s) = body ++ ['"'] := by simpa using between?_iff.mp hb
  obtain ⟨r, hr⟩ := trimEnd_isPrefix (c :: s)
  rw [hb] at hr
  cases body with
  | nil => exact absurd (List.cons.inj hr).1.symm hm
  | cons x body =>
    obtain rfl : x = c := (List.cons.inj hr).1
    exact startsPlain_unescape hc body

/-! ## Inverted texts -/

/-- What may stand where the reader is outside of quotes and the writer was inside: white space and
ampersands, then a quote or something else, each with an ASCII character after it if with any. -/
inductive Inverted : List Char → Prop
  | mark {rest : List Char} (h : ∀ c ∈ rest.head?, isPlain c = true ∧ c ≠ '"') :
    Inverted ('"' :: rest)
  | blank {c : Char} {rest : List Char} (hc : isBlank c = true) (h : Inverted rest) :
    Inverted (c :: rest)
  | cut {rest : List Char} (h : Inverted rest) : Inverted ('&' :: rest)
  | other {c : Char} {rest : List Char} (hb : isBlank c = false) (hm : c ≠ '"') (hc : c ≠ '&')
    (h : PlainHead rest) : Inverted (c :: rest)

theorem startsPlain_mark {rest : List Char} (h : ∀ c ∈ rest.head?, isPlain c = true ∧ c ≠ '"') :
    StartsPlain (concatenation? ('"' :: rest)) := by
  cases rest with
  | nil =>
    rw [show concatenation? ['"'] = none from by decide]
    exact .none
  | cons c rest =>
    obtain ⟨hc, hm⟩ := h c rfl
    obtain ⟨p, ps, hp⟩ := exists_pieces true (c = '\\' && !false) rest
    have opened : splitParts false false ('"' :: c :: rest) =
        prependFirst ['"'] (splitParts true false (c :: rest)) := splitParts_cons (by simp) _
    have e : splitParts false false ('"' :: c :: rest) = ('"' :: c :: p) :: ps := by
      rw [opened, splitParts_cons (by simp), if_neg (by simp [hm]), hp]
      rfl
    rw [concatenation?_eq, e]
    exact (startsPlain_partText? hc hm p).readPieces_cons ps

theorem concatenation?_other {c : Char} (hb : isBlank c = false) (hm : c ≠ '"') (hc : c ≠ '&')
    {rest : List Char} (h : PlainHead rest) : concatenation? (c :: rest) = none := by
  obtain ⟨p, ps, hp⟩ := exists_pieces false (c = '\\' && !false) rest
  have ht : trim (c :: p) = c :: trimEnd p :=
    (Tight.singleton hb).trim_append p
  have head : PlainHead (trimEnd p) :=
    h.of_isPrefix ((trimEnd_isPrefix p).trans (splitParts_first hp))
  rw [concatenation?_eq, splitParts_cons (by simp [hc]), if_neg (by simp [hm]), hp, prependFirst,
    readPieces_cons, List.singleton_append, ht, partText?_eq_none hm head, Option.bind_none]

namespace Inverted

theorem not_blank_first {c : Char} (hb : isBlank c = false) (hc : c ≠ '&') {rest piece : List Char}
    {pieces : List (List Char)} (h : splitParts false false (c :: rest) = piece :: pieces) :
    ¬AllBlank piece := by
  rw [splitParts_cons (by simp [hc])] at h
  obtain ⟨p, ps, hp⟩ := exists_pieces
    (if c = '"' ∧ false = false then !false else false) (c = '\\' && !false) rest
  rw [hp, prependFirst, List.cons.injEq] at h
  intro hw
  have := hw c (by rw [← h.1]; exact List.mem_cons_self)
  rw [hb] at this
  exact absurd this (by decide)

theorem reads {k : List Char} (hk : Inverted k) :
    StartsPlain (concatenation? k) ∧ ∀ piece pieces, splitParts false false k = piece :: pieces →
      AllBlank piece → StartsPlain (readPieces pieces) := by
  induction hk with
  | mark h =>
    refine ⟨startsPlain_mark h, fun piece pieces hs hw => ?_⟩
    exact absurd hw (not_blank_first (by decide) (by decide) hs)
  | @blank c rest hc h ih =>
    have ne (x : Char) (hx : isBlank x = false) : c ≠ x := by
      rintro rfl
      rw [hx] at hc
      exact absurd hc (by decide)
    have e : splitParts false false (c :: rest) =
        prependFirst [c] (splitParts false false rest) := by
      rw [splitParts_cons (by simp [ne '&' (by decide)]), if_neg (by simp [ne '"' (by decide)])]
      simp [ne '\\' (by decide)]
    constructor
    · rw [concatenation?_eq, e, readPieces_prependFirst_blank (by simpa [AllBlank] using hc)
        (splitParts_ne_nil _ _ _)]
      exact ih.1
    · intro piece pieces hs hw
      obtain ⟨p, ps, hp⟩ := exists_pieces false false rest
      rw [e, hp, prependFirst, List.cons.injEq] at hs
      rw [← hs.2]
      refine ih.2 p ps hp fun x hx => hw x ?_
      rw [← hs.1]
      exact List.mem_append_right _ hx
  | @cut rest h ih =>
    constructor
    · rw [concatenation?_eq, splitParts_cut, readPieces_cons]
      exact .none
    · intro piece pieces hs _
      rw [splitParts_cut, List.cons.injEq] at hs
      rw [← hs.2]
      exact ih.1
  | other hb hm hc h =>
    refine ⟨?_, fun piece pieces hs hw => absurd hw (not_blank_first hb hc hs)⟩
    rw [concatenation?_other hb hm hc h]
    exact .none

/-- The text of a string part before an inverted text goes on, if at all, with an ASCII
character. -/
theorem after_string {k : List Char} (hk : Inverted k) {run text : List Char}
    (h : concatenation? ((Part.string run).render ++ k) = some text) :
    ∃ c rest, text = run ++ c :: rest ∧ isPlain c = true := by
  obtain ⟨piece, pieces, hs⟩ := exists_pieces false false k
  have tight := render_tight (.string run)
  rw [concatenation?_eq, splitParts_render, hs, prependFirst, readPieces_cons,
    Option.bind_eq_some_iff] at h
  obtain ⟨first, hf, h⟩ := h
  rw [Option.map_eq_some_iff] at h
  obtain ⟨more, hmore, rfl⟩ := h
  by_cases hw : AllBlank piece
  · -- Only blanks follow the part, and the next piece is read with its quotes inverted.
    rw [trim_append_blank hw, tight.trim_eq, partText?_render, Option.some.injEq] at hf
    obtain ⟨c, rest, rfl, hc⟩ := hk.reads.2 piece pieces hs hw more hmore
    exact ⟨c, rest, by rw [← hf]; rfl, hc⟩
  · -- The part's closing quote stands in the middle of its piece, and is read as a character.
    have hne : trimEnd piece ≠ [] := fun h0 => hw (allBlank_of_trimEnd h0)
    have e : (Part.string run).render ++ trimEnd piece =
        '"' :: (escape run ++ '"' :: trimEnd piece) := by simp [Part.render]
    rw [tight.trim_append, e, partText?_mark, Option.map_eq_some_iff] at hf
    obtain ⟨body, hb, rfl⟩ := hf
    have hb : escape run ++ '"' :: trimEnd piece = body ++ ['"'] := by
      simpa using between?_iff.mp hb
    obtain ⟨w, hw⟩ : ∃ w, trimEnd piece = w ++ ['"'] := by
      refine ⟨(trimEnd piece).dropLast, ?_⟩
      have hlast := congrArg List.getLast? hb
      rw [List.getLast?_append, List.getLast?_cons_of_ne_nil hne, List.getLast?_concat,
        List.getLast?_eq_some_getLast hne] at hlast
      have : (trimEnd piece).getLast hne = '"' := by simpa using hlast
      rw [← this, List.dropLast_concat_getLast hne]
    rw [hw, ← List.cons_append, ← List.append_assoc] at hb
    have hbody := List.append_cancel_right hb
    refine ⟨'"', unescape w ++ more, ?_, by decide⟩
    rw [← hbody, unescape_escape_append, unescape_cons (by decide)]
    simp

end Inverted

end ScriptBridge.Literal
