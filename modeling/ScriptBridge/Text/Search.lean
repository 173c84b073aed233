/-!
Finding, cutting and replacing fixed pieces of text. A text is a list of characters; a piece is
looked for from the left and occurrences do not overlap.
-/
namespace ScriptBridge.Text

/-- The text before and the text after the first occurrence of a piece. -/
def splitFirst? (piece : List Char) : List Char → Option (List Char × List Char)
  | [] => if piece.isEmpty then some ([], []) else none
  | c :: rest =>
    match piece.isPrefixOf? (c :: rest) with
    | some after => some ([], after)
    | none => (splitFirst? piece rest).map fun (before, after) => (c :: before, after)

theorem length_of_isPrefixOf? {piece text after : List Char}
    (h : piece.isPrefixOf? text = some after) : text.length = piece.length + after.length := by
  induction piece generalizing text with
  | nil =>
    cases text <;> cases h <;> rw [List.length_nil, Nat.zero_add]
  | cons c piece ih =>
    cases text with
    | nil => cases h
    | cons d text =>
      change (if c == d then piece.isPrefixOf? text else none) = some after at h
      split at h
      · rw [List.length_cons, List.length_cons, ih h]
        omega
      · cases h

theorem length_of_splitFirst? {piece text before after : List Char}
    (h : splitFirst? piece text = some (before, after)) :
    text.length = before.length + piece.length + after.length := by
  fun_induction splitFirst? piece text generalizing before with
  | case1 empty =>
    cases h
    rw [List.isEmpty_iff.mp empty]
    rfl
  | case2 => cases h
  | case3 c rest _ found =>
    cases h
    rw [length_of_isPrefixOf? found, List.length_nil, Nat.zero_add]
  | case4 c rest _ ih =>
    obtain ⟨⟨_, _⟩, later, e⟩ := Option.map_eq_some_iff.mp h
    cases e
    rw [List.length_cons, List.length_cons, ih later]
    omega

/-- Whether a piece occurs in a text. -/
def contains (text piece : List Char) : Bool := (splitFirst? piece text).isSome

/-- Replaces every occurrence of a nonempty piece; the number counts characters still covered by
the occurrence replaced last. -/
def replaceFrom (piece replacement : List Char) : Nat → List Char → List Char
  | _, [] => []
  | covered + 1, _ :: rest => replaceFrom piece replacement covered rest
  | 0, c :: rest =>
    if piece.isPrefixOf (c :: rest) then
      replacement ++ replaceFrom piece replacement (piece.length - 1) rest
    else c :: replaceFrom piece replacement 0 rest

/-- Replaces every occurrence of a nonempty piece. -/
def replaceAll (piece replacement text : List Char) : List Char :=
  replaceFrom piece replacement 0 text

/-- The pieces of a text between separators; there is always at least one. -/
def splitOn (isSeparator : Char → Bool) : List Char → List (List Char)
  | [] => [[]]
  | c :: rest =>
    if isSeparator c then [] :: splitOn isSeparator rest
    else match splitOn isSeparator rest with
      | [] => [[c]]
      | piece :: more => (c :: piece) :: more

/-- What stands between an opening piece and a closing piece that enclose the whole text. -/
def between? (opening closing text : List Char) : Option (List Char) :=
  (opening.isPrefixOf? text).bind closing.isSuffixOf?

/-- The part between the first and the last occurrence of a character, if it occurs twice. -/
def betweenOuter? (mark : Char) (text : List Char) : Option (List Char) :=
  let fromMark := text.dropWhile (· != mark)
  let upToMark := (fromMark.reverse.dropWhile (· != mark)).reverse
  match upToMark with
  | _ :: inner@(_ :: _) => some inner.dropLast
  | _ => none

/-- The start of a text that takes so many bytes, and what follows it. There is none if the text is
shorter, or if one of its characters goes on beyond these bytes. -/
def firstBytes? : Nat → List Char → Option (List Char × List Char)
  | 0, rest => some ([], rest)
  | _, [] => none
  | owed, c :: rest =>
    if c.utf8Size ≤ owed then
      (firstBytes? (owed - c.utf8Size) rest).map fun (first, rest) => (c :: first, rest)
    else none

theorem length_le_of_firstBytes? {n : Nat} {text first rest : List Char}
    (h : firstBytes? n text = some (first, rest)) : rest.length ≤ text.length := by
  fun_induction firstBytes? n text generalizing first with
  | case1 =>
    cases h
    exact Nat.le_refl _
  | case2 => cases h
  | case3 owed c text _ fits ih =>
    obtain ⟨⟨_, _⟩, later, e⟩ := Option.map_eq_some_iff.mp h
    cases e
    exact Nat.le_succ_of_le (ih later)
  | case4 => cases h

/-- Pieces joined with a separator between neighbours. -/
def joinWith (separator : List Char) : List (List Char) → List Char
  | [] => []
  | [piece] => piece
  | piece :: more => piece ++ separator ++ joinWith separator more

/-- A line without the carriage return that belongs to its ending. -/
def dropReturn (line : List Char) : List Char :=
  if line.getLast? == some '\r' then line.dropLast else line

/-- Lines of a text: they end at a line feed, a carriage return before it belongs to the ending,
and no empty line follows a final line feed. -/
def lines (text : List Char) : List (List Char) :=
  match (splitOn (· == '\n') text).reverse with
  | [] => []
  | last :: ended => (ended.map dropReturn).reverse ++ (if last.isEmpty then [] else [last])

end ScriptBridge.Text
