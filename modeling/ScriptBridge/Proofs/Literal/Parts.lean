import ScriptBridge.Proofs.Text.Bytes
import ScriptBridge.Proofs.Text.Trim
import ScriptBridge.Text.Literal
/-!
The parts of a literal.

`Literal.quote` writes a literal character by character. `parts` cuts the same text into the runs
that become its parts, and `quote_eq_join` says that the literal is these parts, each rendered by
itself, with ` & ` between neighbours and parentheses around. The texts of the parts make up the
text again (`flatMap_text_parts`), so whatever reads each part and joins the results reads the
literal.
-/
namespace ScriptBridge.Literal

open Text

/-- A part of a literal, by the text it stands for. -/
inductive Part where
  /-- A run between quotes. -/
  | string (run : List Char)
  /-- A run as hexadecimal bytes. -/
  | data (run : List Char)

namespace Part

/-- The text a part stands for. -/
def text : Part → List Char
  | string run => run
  | data run => run

/-- A part as it is written. -/
def render : Part → List Char
  | string run => '"' :: escape run ++ ['"']
  | data run => unicodeText run

/-- The part with one more character in front. -/
def push (c : Char) : Part → Part
  | string run => string (c :: run)
  | data run => data (c :: run)

end Part

/-- The parts with one more character in front of the first. -/
def pushFirst (c : Char) : List Part → List Part
  | [] => []
  | p :: ps => p.push c :: ps

mutual
/-- The parts of a text, the first of which continues a string part. -/
def partsInString : List Char → List Part
  | [] => [.string []]
  | c :: rest =>
    if isPlain c then pushFirst c (partsInString rest)
    else .string [] :: pushFirst c (partsInData rest)

/-- The parts of a text, the first of which continues a data part. -/
def partsInData : List Char → List Part
  | [] => [.data []]
  | c :: rest =>
    if isPlain c then .data [] :: pushFirst c (partsInString rest)
    else pushFirst c (partsInData rest)
end

/-- The parts of a text: its ASCII runs between quotes, the others as data. -/
def parts (s : List Char) : List Part := partsInString s

/-- What stands between two parts. -/
def ampersand : List Char := [' ', '&', ' ']

/-- Parts as they stand in a literal. -/
def join (ps : List Part) : List Char := joinWith ampersand (ps.map Part.render)

/-! ## The first part -/

theorem partsInString_head (s : List Char) : ∃ run ps, partsInString s = .string run :: ps := by
  induction s with
  | nil => exact ⟨[], [], rfl⟩
  | cons c s ih =>
    obtain ⟨run, ps, h⟩ := ih
    by_cases hc : isPlain c
    · exact ⟨c :: run, ps, by simp [partsInString, hc, h, pushFirst, Part.push]⟩
    · exact ⟨[], pushFirst c (partsInData s), by simp [partsInString, hc]⟩

theorem partsInData_head (s : List Char) : ∃ run ps, partsInData s = .data run :: ps := by
  induction s with
  | nil => exact ⟨[], [], rfl⟩
  | cons c s ih =>
    obtain ⟨run, ps, h⟩ := ih
    by_cases hc : isPlain c
    · exact ⟨[], pushFirst c (partsInString s), by simp [partsInData, hc]⟩
    · exact ⟨c :: run, ps, by simp [partsInData, hc, h, pushFirst, Part.push]⟩

/-! ## The parts make up the text -/

theorem flatMap_text_pushFirst (c : Char) {ps : List Part} (h : ps ≠ []) :
    (pushFirst c ps).flatMap Part.text = c :: ps.flatMap Part.text := by
  cases ps with
  | nil => exact absurd rfl h
  | cons p ps => cases p <;> rfl

theorem flatMap_text_parts_aux (s : List Char) :
    (partsInString s).flatMap Part.text = s ∧ (partsInData s).flatMap Part.text = s := by
  induction s with
  | nil => exact ⟨rfl, rfl⟩
  | cons c s ih =>
    obtain ⟨hs, hd⟩ := ih
    have es : (pushFirst c (partsInString s)).flatMap Part.text = c :: s := by
      obtain ⟨run, ps, h⟩ := partsInString_head s
      rw [flatMap_text_pushFirst c (by simp [h]), hs]
    have ed : (pushFirst c (partsInData s)).flatMap Part.text = c :: s := by
      obtain ⟨run, ps, h⟩ := partsInData_head s
      rw [flatMap_text_pushFirst c (by simp [h]), hd]
    by_cases hc : isPlain c
    · simp [partsInString, partsInData, hc, es, Part.text]
    · simp [partsInString, partsInData, hc, ed, Part.text]

theorem flatMap_text_parts (s : List Char) : (parts s).flatMap Part.text = s :=
  (flatMap_text_parts_aux s).1

/-! ## The literal is its parts -/

theorem joinWith_append (separator a x : List Char) (more : List (List Char)) :
    joinWith separator ((a ++ x) :: more) = a ++ joinWith separator (x :: more) := by
  cases more with
  | nil => rfl
  | cons y more => simp [joinWith]

theorem join_cons (p q : Part) (ps : List Part) :
    join (p :: q :: ps) = p.render ++ ampersand ++ join (q :: ps) := rfl

theorem join_string (run : List Char) (ps : List Part) :
    join (.string run :: ps) =
      '"' :: joinWith ampersand ((escape run ++ ['"']) :: ps.map Part.render) :=
  joinWith_append ampersand ['"'] (escape run ++ ['"']) (ps.map Part.render)

theorem join_data (run : List Char) (ps : List Part) :
    join (.data run :: ps) = dataOpening ++
      joinWith ampersand ((Hex.lower (Utf8.encode run) ++ dataClosing) :: ps.map Part.render) := by
  have h := joinWith_append ampersand dataOpening (Hex.lower (Utf8.encode run) ++ dataClosing)
    (ps.map Part.render)
  rw [← List.append_assoc] at h
  exact h

theorem join_push_string (c : Char) (run : List Char) (ps : List Part) :
    join (.string (c :: run) :: ps) =
      '"' :: (escapeChar c ++ (join (.string run :: ps)).tail) := by
  have h : escape (c :: run) ++ ['"'] = escapeChar c ++ (escape run ++ ['"']) := by
    simp [escape]
  rw [join_string, join_string, h, joinWith_append, List.tail_cons]

theorem lower_cons (c : Char) (run : List Char) :
    Hex.lower (Utf8.encode (c :: run)) =
      Hex.lower (Utf8.encodeChar c) ++ Hex.lower (Utf8.encode run) := by
  simp [Hex.lower, Utf8.encode]

theorem join_push_data (c : Char) (run : List Char) (ps : List Part) :
    join (.data (c :: run) :: ps) = dataOpening ++ (Hex.lower (Utf8.encodeChar c) ++
      joinWith ampersand ((Hex.lower (Utf8.encode run) ++ dataClosing) :: ps.map Part.render)) := by
  rw [join_data, lower_cons, List.append_assoc, joinWith_append]

/-- The rest of a literal, from inside of a part, is the rest of its parts. -/
theorem quoteIn_eq_join (s : List Char) :
    '"' :: quoteInString s = join (partsInString s) ++ [')'] ∧
      dataOpening ++ quoteInData s = join (partsInData s) ++ [')'] := by
  induction s with
  | nil => exact ⟨rfl, rfl⟩
  | cons c s ih =>
    obtain ⟨hs, hd⟩ := ih
    obtain ⟨run, ps, h₁⟩ := partsInString_head s
    obtain ⟨bytes, ds, h₂⟩ := partsInData_head s
    have es : quoteInString s = (join (.string run :: ps)).tail ++ [')'] := by
      rw [h₁, join_string, List.cons_append, List.cons.injEq] at hs
      rw [hs.2, join_string, List.tail_cons]
    have ed : quoteInData s = joinWith ampersand
        ((Hex.lower (Utf8.encode bytes) ++ dataClosing) :: ds.map Part.render) ++ [')'] := by
      rw [h₂, join_data, List.append_assoc, List.append_cancel_left_eq] at hd
      exact hd
    -- A character that continues the part is pushed onto it; any other one closes the part and
    -- opens the next.
    by_cases hc : isPlain c
    · simp only [quoteInString, quoteInData, partsInString, partsInData, if_pos hc, h₁, pushFirst,
        Part.push, join_cons, join_push_string, es]
      refine ⟨by simp, ?_⟩
      simp [Part.render, unicodeText, Hex.lower, Utf8.encode, ampersand]
    · simp only [quoteInString, quoteInData, partsInString, partsInData, if_neg hc, h₂, pushFirst,
        Part.push, join_cons, join_push_data, ed]
      refine ⟨?_, by simp⟩
      simp [Part.render, escape, ampersand]

/-- A literal is its parts, with ` & ` between neighbours, in parentheses. -/
theorem quote_eq_join (s : List Char) : quote s = '(' :: join (parts s) ++ [')'] := by
  unfold quote
  rw [(quoteIn_eq_join s).1]
  rfl

end ScriptBridge.Literal
