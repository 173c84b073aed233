import Mathlib.Data.List.Chain
import Mathlib.Data.List.Forall2
import ScriptBridge.Proofs.Group.Scan
/-!
Nested lists.

An item is a sequence of pieces: characters that neither quote nor group nor divide, string literals
without escapes, and groups of items with any white space around each. The scanner stays in every
piece, so an item is a segment whatever it nests (`IsItem.segment`). The list that a group holds is
therefore divided into its items, and dividing those of them that are groups themselves, as deep as
it goes, recovers the whole tree (`splitList_recovers`).
-/
namespace ScriptBridge.Group

open Text

/-- A part of an item. -/
inductive Piece where
  | plain (c : Char)
  | quoted (body : List Char)
  | group (row : List (Padded (List Piece)))

mutual

/-- A piece as it is written. -/
def Piece.text : Piece → List Char
  | .plain c => [c]
  | .quoted body => '"' :: body ++ ['"']
  | .group row => '\x7b' :: [','].intercalate (paddedTexts row) ++ ['\x7d']

def paddedTexts : List (Padded (List Piece)) → List (List Char)
  | [] => []
  | p :: row => paddedText p :: paddedTexts row

def paddedText : Padded (List Piece) → List Char
  | ⟨before, item, after⟩ => before ++ itemText item ++ after

/-- An item as it is written. -/
def itemText : List Piece → List Char
  | [] => []
  | p :: pieces => p.text ++ itemText pieces

end

/-- What a piece may hold, the items of a group apart. -/
def Piece.IsSound : Piece → Prop
  | .plain c => c ≠ '"' ∧ c ≠ ',' ∧ c ≠ '\x7b' ∧ c ≠ '\x7d'
  | .quoted body => ∀ c ∈ body, c ≠ '"' ∧ c ≠ '\\' ∧ c ≠ '\x7b' ∧ c ≠ '\x7d'
  | .group row => ∀ p ∈ row, p.IsBlank

/-- Whether one piece may stand before another: no string literal follows a backslash. -/
def Piece.Precedes (p q : Piece) : Prop := p = .plain '\\' → ∀ body, q ≠ .quoted body

/-- An item: at least one piece, without white space at either end, and so on in its groups. -/
inductive IsItem : List Piece → Prop
  | intro {pieces : List Piece} (nonempty : pieces ≠ [])
    (trimmed : trim (itemText pieces) = itemText pieces) (sound : ∀ p ∈ pieces, p.IsSound)
    (unescaped : pieces.IsChain Piece.Precedes)
    (items : ∀ row, .group row ∈ pieces → ∀ p ∈ row, IsItem p.item) : IsItem pieces

/-- What dividing recovers of an item: the text, or the items of a group. -/
inductive Outline where
  | text (text : String)
  | list (items : List Outline)

mutual

def Piece.outline : Piece → Outline
  | .group row => .list (outlines row)
  | p => .text (String.ofList p.text)

def outlines : List (Padded (List Piece)) → List Outline
  | [] => []
  | p :: row => paddedOutline p :: outlines row

def paddedOutline : Padded (List Piece) → Outline
  | ⟨_, item, _⟩ => outline item

/-- The outline of an item. Only an item that is one group, and nothing else, is a list. -/
def outline : List Piece → Outline
  | [p] => p.outline
  | pieces => .text (String.ofList (itemText pieces))

end

/-- Dividing a text, and of the items those that are lists again, gives an outline. -/
inductive Divides : String → Outline → Prop
  | text (text : String) : Divides text (.text text)
  | list {text : String} {items : List String} {outlines : List Outline}
    (divided : splitList text = .ok items) (each : List.Forall₂ Divides items outlines) :
    Divides text (.list outlines)

/-! ## Groups as rows -/

/-- The row of the items' texts. -/
def textRow (row : List (Padded (List Piece))) : List (Padded (List Char)) :=
  row.map fun p => ⟨p.before, itemText p.item, p.after⟩

theorem paddedTexts_eq (row : List (Padded (List Piece))) :
    paddedTexts row = (textRow row).map Padded.text := by
  induction row with
  | nil => rfl
  | cons p row ih =>
    obtain ⟨before, item, after⟩ := p
    rw [paddedTexts, ih]
    rfl

theorem text_group (row : List (Padded (List Piece))) :
    (Piece.group row).text = '\x7b' :: rowText (textRow row) ++ ['\x7d'] := by
  rw [Piece.text, paddedTexts_eq, rowText]

theorem isRow_textRow {row : List (Padded (List Piece))}
    (h : ∀ p ∈ row, p.IsBlank ∧ Segment (itemText p.item)) : IsRow (textRow row) :=
  List.forall_mem_map.mpr fun p hp => ⟨⟨(h p hp).1.before, (h p hp).1.after⟩, (h p hp).2⟩

theorem text_ne_nil (p : Piece) : p.text ≠ [] := by
  cases p <;> simp [Piece.text]

/-! ## Pieces -/

theorem held_body {body : List Char} (h : (Piece.quoted body).IsSound) (depth : Int) :
    Held ⟨depth, true, false⟩ body ∧
      Scanner.run ⟨depth, true, false⟩ body = ⟨depth, true, false⟩ := by
  induction body with
  | nil => exact ⟨.nil _, rfl⟩
  | cons c body ih =>
    obtain ⟨⟨quote, backslash, opening, closing⟩, h⟩ := List.forall_mem_cons.mp h
    have step : Scanner.step ⟨depth, true, false⟩ c = ⟨depth, true, false⟩ := by
      simp [Scanner.step, quote, backslash, opening, closing]
    have first : Held ⟨depth, true, false⟩ [c] := .of_role (by rw [step, role_quoted rfl])
    obtain ⟨held, run⟩ := ih h
    refine ⟨first.append ?_, by rw [run_cons, step, run]⟩
    rw [run_cons, step]
    exact held

section
variable {s : Scanner}

theorem stays_quoted {body : List Char} (h : (Piece.quoted body).IsSound) (hs : s.AtItem)
    (fresh : s.afterBackslash = false) : Stays s ('"' :: body ++ ['"']) := by
  obtain ⟨held, run⟩ := held_body h s.depth
  have opening : s.step '"' = ⟨s.depth, true, false⟩ := by
    simp [Scanner.step, hs.unquoted, fresh]
  have closing : Scanner.step ⟨s.depth, true, false⟩ '"' = ⟨s.depth, false, false⟩ := by
    simp [Scanner.step]
  have first : Held s ['"'] := .of_role (by rw [opening, role_quoted rfl])
  have last : Held ⟨s.depth, true, false⟩ ['"'] := by
    apply Held.of_role
    rw [closing, role_other (by decide) (by decide) (by decide), if_pos (Or.inr hs.depth)]
  have whole : s.run ('"' :: body ++ ['"']) = ⟨s.depth, false, false⟩ := by
    rw [List.cons_append, run_cons, run_append, opening, run, run_cons, run_nil, closing]
  rw [← run] at last
  rw [← opening] at held last
  exact .of_run (first.append (held.append last)) whole

theorem Piece.stays {p : Piece} (sound : p.IsSound)
    (items : ∀ row, p = .group row → ∀ q ∈ row, Segment (itemText q.item)) (hs : s.AtItem)
    (fresh : s.afterBackslash = true → ∀ body, p ≠ .quoted body) : Stays s p.text := by
  cases p with
  | plain c =>
    obtain ⟨quote, comma, opening, closing⟩ := sound
    exact .of_plain quote comma opening closing hs
  | quoted body =>
    have fresh : s.afterBackslash = false :=
      Bool.eq_false_iff.mpr fun h => fresh h body rfl
    exact stays_quoted sound hs fresh
  | group row =>
    rw [text_group]
    have segments : IsRow (textRow row) :=
      isRow_textRow fun q hq => ⟨sound q hq, items row rfl q hq⟩
    exact (Item.row segments).stays hs

theorem afterBackslash_concat (a : List Char) (c : Char) :
    (s.run (a ++ [c])).afterBackslash = decide (c = '\\') := by
  rw [run_append]
  rfl

theorem Piece.eq_plain_of_afterBackslash {p : Piece} (h : (s.run p.text).afterBackslash = true) :
    p = .plain '\\' := by
  cases p with
  | plain c =>
    rw [Piece.text, ← List.nil_append [c], afterBackslash_concat] at h
    rw [of_decide_eq_true h]
  | quoted body =>
    rw [Piece.text, afterBackslash_concat] at h
    exact absurd h (by decide)
  | group row =>
    rw [Piece.text, afterBackslash_concat] at h
    exact absurd h (by decide)

theorem stays_itemText {pieces : List Piece} (sound : ∀ p ∈ pieces, p.IsSound)
    (unescaped : pieces.IsChain Piece.Precedes)
    (items : ∀ row, .group row ∈ pieces → ∀ q ∈ row, Segment (itemText q.item)) (hs : s.AtItem)
    (fresh : s.afterBackslash = true → ∀ body, pieces.head? ≠ some (.quoted body)) :
    Stays s (itemText pieces) := by
  induction pieces generalizing s with
  | nil => exact .nil hs
  | cons p pieces ih =>
    rw [List.forall_mem_cons] at sound
    have first : Stays s p.text := by
      refine Piece.stays sound.1 (fun row h => ?_) hs fun escaped body h => ?_
      · exact items row (h ▸ List.mem_cons_self)
      · exact fresh escaped body (congrArg some h)
    refine first.append (ih sound.2 unescaped.of_cons (fun row h => ?_) (first.atItem hs) ?_)
    · exact items row (List.mem_cons_of_mem p h)
    · intro escaped body h
      obtain ⟨rest, rfl⟩ := List.head?_eq_some_iff.mp h
      have precedes := (List.isChain_cons_cons.mp unescaped).1
      exact precedes (Piece.eq_plain_of_afterBackslash escaped) body rfl

end

/-! ## Items -/

/-- An item is a segment, whatever it nests. -/
theorem IsItem.segment {pieces : List Piece} (h : IsItem pieces) : Segment (itemText pieces) := by
  induction h with
  | @intro pieces nonempty trimmed sound unescaped _ ih =>
    constructor
    · refine Tight.of_trim (fun blank => ?_) trimmed
      obtain ⟨p, rest, rfl⟩ := List.exists_cons_of_ne_nil nonempty
      exact text_ne_nil p (List.append_eq_nil_iff.mp blank).1
    · intro s hs fresh
      refine stays_itemText sound unescaped ih hs fun escaped => ?_
      rw [fresh] at escaped
      cases escaped

theorem splitList_group {row : List (Padded (List Piece))}
    (h : ∀ p ∈ row, p.IsBlank ∧ IsItem p.item) :
    splitList (String.ofList (Piece.group row).text) =
      .ok (row.map fun p => String.ofList (itemText p.item)) := by
  have segments : IsRow (textRow row) := isRow_textRow fun p hp => ⟨(h p hp).1, (h p hp).2.segment⟩
  rw [splitList, String.toList_ofList, text_group, segments?_row segments]
  simp [textRow, Function.comp_def]

theorem outlines_eq (row : List (Padded (List Piece))) :
    outlines row = row.map fun p => outline p.item := by
  induction row with
  | nil => rfl
  | cons p row ih =>
    obtain ⟨before, item, after⟩ := p
    rw [outlines, ih]
    rfl

theorem forall₂_row {row : List (Padded (List Piece))}
    (h : ∀ p ∈ row, Divides (String.ofList (itemText p.item)) (outline p.item)) :
    List.Forall₂ Divides (row.map fun p => String.ofList (itemText p.item))
      (row.map fun p => outline p.item) :=
  List.forall₂_map_left_iff.mpr (List.forall₂_map_right_iff.mpr (List.forall₂_same.mpr h))

theorem IsItem.divides {pieces : List Piece} (h : IsItem pieces) :
    Divides (String.ofList (itemText pieces)) (outline pieces) := by
  induction h with
  | @intro pieces nonempty trimmed sound unescaped items ih =>
    match pieces with
    | [] => exact absurd rfl nonempty
    | _ :: _ :: _ => exact .text _
    | [p] =>
      rw [outline, show itemText [p] = p.text from List.append_nil _]
      cases p with
      | plain c => exact .text _
      | quoted body => exact .text _
      | group row =>
        have blank : ∀ p ∈ row, p.IsBlank := sound _ List.mem_cons_self
        have inner := items row List.mem_cons_self
        rw [Piece.outline, outlines_eq]
        refine .list (splitList_group fun p hp => ⟨blank p hp, inner p hp⟩) ?_
        exact forall₂_row (ih row List.mem_cons_self)

/-- A list is divided into its items, and so are the lists among them down to the last. -/
theorem splitList_recovers {row : List (Padded (List Piece))}
    (h : ∀ p ∈ row, p.IsBlank ∧ IsItem p.item) :
    splitList (String.ofList (Piece.group row).text) =
        .ok (row.map fun p => String.ofList (itemText p.item)) ∧
      Divides (String.ofList (Piece.group row).text) (.list (row.map fun p => outline p.item)) := by
  have divided := splitList_group h
  exact ⟨divided, .list divided (forall₂_row fun p hp => (h p hp).2.divides)⟩

/-- A list with a list, a text that ends with a backslash, and a text that starts with a list. -/
def mixedRow : List (Padded (List Piece)) :=
  [⟨[' '], [.group [⟨[], [.plain '1'], []⟩, ⟨['\t'], [.quoted ['a', ',', 'b']], []⟩]], [' ']⟩,
    ⟨[], [.plain 'x', .plain '\\'], []⟩, ⟨[' '], [.group [], .plain 'y'], []⟩]

theorem splitList_recovers_mixed :
    (∀ p ∈ mixedRow, p.IsBlank ∧ IsItem p.item) ∧
      splitList "\x7b \x7b1,\t\"a,b\"\x7d ,x\\, \x7b\x7dy\x7d" =
        .ok ["\x7b1,\t\"a,b\"\x7d", "x\\", "\x7b\x7dy"] ∧
      Divides "\x7b \x7b1,\t\"a,b\"\x7d ,x\\, \x7b\x7dy\x7d"
        (.list [.list [.text "1", .text "\"a,b\""], .text "x\\", .text "\x7b\x7dy"]) := by
  have blank : ∀ p ∈ mixedRow, p.IsBlank := by
    simp only [mixedRow, List.forall_mem_cons]
    exact ⟨⟨by decide, by decide⟩, ⟨by decide, by decide⟩, ⟨by decide, by decide⟩, by simp⟩
  have one : IsItem [.plain '1'] :=
    .intro (by simp) (by decide) (by simp [Piece.IsSound]) (.singleton _) (by simp)
  have quoted : IsItem [.quoted ['a', ',', 'b']] :=
    .intro (by simp) (by decide) (by simp [Piece.IsSound]) (.singleton _) (by simp)
  have list : IsItem [.group [⟨[], [.plain '1'], []⟩, ⟨['\t'], [.quoted ['a', ',', 'b']], []⟩]] := by
    refine .intro (by simp) (by decide) ?_ (.singleton _) (by simp [one, quoted])
    simp only [Piece.IsSound, List.forall_mem_cons]
    exact ⟨⟨⟨by decide, by decide⟩, ⟨by decide, by decide⟩, by simp⟩, by simp⟩
  have backslash : IsItem [.plain 'x', .plain '\\'] :=
    .intro (by simp) (by decide) (by simp [Piece.IsSound])
      (.cons_cons (by simp [Piece.Precedes]) (.singleton _)) (by simp)
  have mixed : IsItem [.group [], .plain 'y'] :=
    .intro (by simp) (by decide) (by simp [Piece.IsSound])
      (.cons_cons (by simp [Piece.Precedes]) (.singleton _)) (by simp)
  have sound : ∀ p ∈ mixedRow, p.IsBlank ∧ IsItem p.item := by
    refine fun p hp => ⟨blank p hp, ?_⟩
    revert p
    simp [mixedRow, list, backslash, mixed]
  exact ⟨sound, splitList_recovers sound⟩

end ScriptBridge.Group
