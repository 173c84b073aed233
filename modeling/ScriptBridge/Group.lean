import ScriptBridge.Error
import ScriptBridge.Text.Blank
/-!
Lists and records as the interpreter prints them: items between braces, divided by commas, where an
item may be a group of its own or a string literal that holds anything.

A scanner runs over the text and keeps the depth of braces and whether a string literal is open; a
quote opens or closes one unless a backslash stands directly before it. Braces count inside string
literals too. From the scanner's state at each character follows whether the character belongs to
the current segment, ends it, or is passed over. Text that does not start with a brace is divided at
every comma, whatever the depth.
-/
namespace ScriptBridge.Group

/-- What is known at a place of the text. -/
structure Scanner where
  /-- How many braces are open; closing ones that close nothing count below zero. -/
  depth : Int := 0
  /-- Whether a string literal is open. -/
  quoted : Bool := false
  /-- Whether the last character was a backslash. -/
  afterBackslash : Bool := false
  deriving DecidableEq, Repr

/-- The state after one more character. -/
def Scanner.step (s : Scanner) (c : Char) : Scanner :=
  { depth := if c = '\x7b' then s.depth + 1 else if c = '\x7d' then s.depth - 1 else s.depth,
    quoted := if c = '"' ∧ s.afterBackslash = false then !s.quoted else s.quoted,
    afterBackslash := c = '\\' }

/-- Whether the text up to a place is complete. -/
def Scanner.isBalanced (s : Scanner) : Bool := s.depth == 0 && !s.quoted

/-- What a character is to the segment it stands in. -/
inductive Role where
  | belongs
  | ends
  | endsWithin
  | passed
  deriving DecidableEq, Repr

/-- The role of a character, given the state after it and whether it is the last one. The last
character of a text without braces both belongs to the last segment and ends it. -/
def role (braced : Bool) (s : Scanner) (c : Char) (isLast : Bool) : Role :=
  if s.quoted then .belongs
  else if !braced && isLast then .endsWithin
  else if (s.depth == 1 && c == ',') || (s.depth == 0 && c == '\x7d') || (!braced && c == ',') then
    .ends
  else if (s.depth == 1 && c != '\x7b') || !braced || 1 < s.depth then .belongs
  else .passed

/-- A segment in front of others, unless it is blank. -/
def pushSegment (segment : List Char) (segments : List (List Char)) : List (List Char) :=
  let segment := Text.trim segment
  if segment.isEmpty then segments else segment :: segments

/-- The segments from a place on, given the state there and the current segment in reverse, and the
state at the end. -/
def segmentsFrom (braced : Bool) (s : Scanner) (current : List Char) :
    List Char → List (List Char) × Scanner
  | [] => ([], s)
  | c :: rest =>
    match role braced (s.step c) c rest.isEmpty with
    | .belongs => segmentsFrom braced (s.step c) (c :: current) rest
    | .passed => segmentsFrom braced (s.step c) current rest
    | .ends =>
      let (segments, final) := segmentsFrom braced (s.step c) [] rest
      (pushSegment current.reverse segments, final)
    | .endsWithin =>
      let (segments, final) := segmentsFrom braced (s.step c) [] rest
      (pushSegment (c :: current).reverse segments, final)

/-- The segments of a text, or nothing if it is not balanced. -/
def segments? (text : List Char) : Option (List (List Char)) :=
  let (segments, final) := segmentsFrom (text.head? == some '\x7b') {} [] text
  if final.isBalanced then some segments else none

/-- The key and the value of a record's entry, divided at the first colon outside of string
literals. -/
def keyAndValue? (quoted afterBackslash : Bool) : List Char → Option (List Char × List Char)
  | [] => none
  | c :: rest =>
    if c = ':' ∧ quoted = false then some ([], rest)
    else
      let quoted := if c = '"' ∧ afterBackslash = false then !quoted else quoted
      (keyAndValue? quoted (c = '\\') rest).map fun (key, value) => (c :: key, value)

/-- The items of a list. -/
def splitList (text : String) : Except FormatError (List String) :=
  match segments? text.toList with
  | none => .error (.list text)
  | some segments => .ok (segments.map String.ofList)

/-- The entry that a segment of a record holds. -/
def splitEntry (text : String) (segment : List Char) : Except FormatError (String × String) :=
  match keyAndValue? false false segment with
  | none => .error (.record text (.noKey (String.ofList segment)))
  | some (key, value) => .ok (String.ofList (Text.trim key), String.ofList (Text.trim value))

/-- The entries of a record. -/
def splitRecord (text : String) : Except FormatError (List (String × String)) :=
  match segments? text.toList with
  | none => .error (.record text .unbalanced)
  | some segments => segments.mapM (splitEntry text)

end ScriptBridge.Group
