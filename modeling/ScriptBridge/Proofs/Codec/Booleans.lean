import ScriptBridge.Proofs.Codec.Lists
import ScriptBridge.Proofs.Group.Records
import ScriptBridge.Proofs.Value.Leaves
import ScriptBridge.Proofs.Value.Outcomes
/-!
Truth values in nested lists.

A text that is read as lists of truth values, nested to some depth, is split as often. The segments
that are left then ought to be words: for the missing value, for true or for false, the last two in
any letter case. A list of other segments ought to be refused, with an error that names the first of
them (`Obeys`).

Only blank segments are refused though, and there are none in lists. Whatever else is no word is
taken for false. So the law is obeyed exactly by the texts whose segments are words, or that are
blank as a whole and not to be split at all (`decode_booleans_iff`).
-/
namespace ScriptBridge.Codec

open Text ScriptBridge.Group

/-- The type of truth values in lists of some depth. -/
def booleans : Nat → ValueType
  | 0 => .boolean
  | depth + 1 => .list (booleans depth)

/-- The segments of a text, which is split as often as lists are nested. -/
def leafSegments : Nat → String → Except FormatError (List String)
  | 0, text => .ok [text]
  | depth + 1, text =>
    match splitList text with
    | .error e => .error e
    | .ok items => (items.mapM (leafSegments depth)).map List.flatten

/-- What a word says about truth; other segments say nothing. -/
def truth? (segment : String) : Option Value :=
  let word := (trim segment.toList).map Char.toLower
  if trimmed segment = missingValue then some .null
  else if word = "true".toList then some (.boolean true)
  else if word = "false".toList then some (.boolean false)
  else none

/-- The law of truth values: what is read are the words of the segments, and what is refused is
refused for the first segment that is no word. -/
structure Obeys (application : Option String) (segments : List String)
    (outcome : Except ScriptError Value) : Prop where
  read : (∀ segment ∈ segments, truth? segment ≠ none) → ∃ value, outcome = .ok value
  success : ∀ value, outcome = .ok value → value.leaves.map some = segments.map truth?
  failure : ∀ before segment after, segments = before ++ segment :: after →
    (∀ earlier ∈ before, truth? earlier ≠ none) → truth? segment = none →
    outcome = .error (.decode .boolean (answer segment application) (.boolean (trimmed segment)))

/-- What a segment is taken for. -/
def taken (segment : String) : Value := (truth? segment).getD (.boolean false)

/-! ## One segment -/

theorem trim_eq_nil_iff {segment : String} : trim segment.toList = [] ↔ trimmed segment = "" := by
  rw [trimmed, ← String.toList_inj, String.toList_ofList, String.toList_empty]

theorem truth?_of_blank {segment : String} (blank : trimmed segment = "") :
    truth? segment = none := by
  simp only [truth?, blank, trim_eq_nil_iff.mpr blank]
  decide

theorem taken_cases (segment : String) :
    taken segment = .null ∨ ∃ b, taken segment = .boolean b := by
  unfold taken truth?
  dsimp only
  split
  · exact .inl rfl
  · split
    · exact .inr ⟨true, rfl⟩
    · split <;> exact .inr ⟨false, rfl⟩

theorem leaves_taken (segment : String) : (taken segment).leaves = [taken segment] := by
  obtain e | ⟨b, e⟩ := taken_cases segment <;> rw [e] <;> rfl

theorem taken_of_missing {segment : String} (missing : trimmed segment = missingValue) :
    taken segment = .null := by
  simp only [taken, truth?, missing, if_true]
  rfl

theorem taken_of_present {segment : String} (present : trimmed segment ≠ missingValue) :
    taken segment = .boolean ((trim segment.toList).map Char.toLower = "true".toList) := by
  simp only [taken, truth?, present, if_false]
  split
  · next yes => simp [yes]
  · next no =>
    rw [decide_eq_false no]
    split <;> rfl

theorem boolean_decode_eq (segment : String) (application : Option String) :
    boolean.decode (answer segment application) =
      if trimmed segment = "" then .error (.format (.boolean (trimmed segment)))
      else .ok (taken segment) := by
  simp only [boolean, answer, Reference.objectText, Option.getD_some, isMissingValue, Option.map_some,
    Option.some.injEq, decide_eq_true_eq, List.isEmpty_iff, trim_eq_nil_iff]
  by_cases missing : trimmed segment = missingValue
  · have filled : trimmed segment ≠ "" := by
      rw [missing]
      decide
    rw [if_pos missing, if_neg filled, taken_of_missing missing]
  · rw [if_neg missing]
    split
    · next blank => rw [blank]
    · rw [taken_of_present missing]
      rfl

section
variable (locale : String) (applications : Registry) (application : Option String)

theorem decodeAs_boolean (segment : String) :
    decodeAs (builtin locale) applications .boolean (answer segment application) =
      if trimmed segment = "" then
        .error (.decode .boolean (answer segment application) (.boolean (trimmed segment)))
      else .ok (taken segment) := by
  unfold decodeAs
  simp only [show find? (builtin locale) .boolean = some boolean from rfl, decodeWith,
    boolean_decode_eq]
  by_cases blank : trimmed segment = ""
  · rw [if_pos blank, if_pos blank]
  · rw [if_neg blank, if_neg blank]

/-! ## Lists of segments -/

theorem leafSegments_succ {depth : Nat} {text : String} {segments : List String}
    (split : leafSegments (depth + 1) text = .ok segments) :
    ∃ items parts, splitList text = .ok items ∧ items.mapM (leafSegments depth) = .ok parts ∧
      segments = parts.flatten := by
  rw [leafSegments] at split
  cases found : splitList text with
  | error e =>
    rw [found] at split
    cases split
  | ok items =>
    rw [found] at split
    obtain ⟨parts, ran, rfl⟩ := ok_of_map split
    exact ⟨items, parts, rfl, ran, rfl⟩

theorem filled_of_leafSegments {depth : Nat} {text : String} {segments : List String}
    (split : leafSegments (depth + 1) text = .ok segments) :
    ∀ segment ∈ segments, trimmed segment ≠ "" := by
  induction depth generalizing text segments with
  | zero =>
    obtain ⟨items, parts, found, ran, rfl⟩ := leafSegments_succ split
    intro segment inside
    obtain ⟨part, known, inside⟩ := List.mem_flatten.mp inside
    obtain ⟨item, listed, single⟩ := mem_of_mapM ran part known
    cases single
    rw [List.mem_singleton.mp inside]
    have tight := splitList_tight found item listed
    rw [trimmed_of_tight tight]
    rintro rfl
    obtain ⟨c, rest, impossible, -⟩ := tight.first
    cases impossible
  | succ depth ih =>
    obtain ⟨items, parts, -, ran, rfl⟩ := leafSegments_succ split
    intro segment inside
    obtain ⟨part, known, inside⟩ := List.mem_flatten.mp inside
    obtain ⟨item, -, deeper⟩ := mem_of_mapM ran part known
    exact ih deeper segment inside

theorem decode_items {decode : String → Except ScriptError Value} {depth : Nat}
    (each : ∀ item part, leafSegments depth item = .ok part →
      (∀ segment ∈ part, trimmed segment ≠ "") →
      ∃ value, decode item = .ok value ∧ value.leaves = part.map taken)
    {items : List String} {parts : List (List String)}
    (split : items.mapM (leafSegments depth) = .ok parts)
    (filled : ∀ segment ∈ parts.flatten, trimmed segment ≠ "") :
    ∃ values, items.mapM decode = .ok values ∧ itemLeaves values = parts.flatten.map taken := by
  induction items generalizing parts with
  | nil =>
    cases split
    exact ⟨[], rfl, rfl⟩
  | cons item items ih =>
    rw [List.mapM_cons] at split
    obtain ⟨part, first, split⟩ := ok_of_bind split
    obtain ⟨more, rest, split⟩ := ok_of_bind split
    cases split
    rw [List.flatten_cons, List.forall_mem_append] at filled
    obtain ⟨value, read, leaves⟩ := each item part first filled.1
    obtain ⟨values, others, otherLeaves⟩ := ih rest filled.2
    refine ⟨value :: values, ?_, ?_⟩
    · rw [List.mapM_cons, read, others]
      rfl
    · rw [itemLeaves, leaves, otherLeaves, List.flatten_cons, List.map_append]

/-- Without blank segments, each segment is taken for something. -/
theorem decodeAs_booleans {depth : Nat} {text : String} {segments : List String}
    (split : leafSegments depth text = .ok segments)
    (filled : ∀ segment ∈ segments, trimmed segment ≠ "") :
    ∃ value, decodeAs (builtin locale) applications (booleans depth) (answer text application) =
      .ok value ∧ value.leaves = segments.map taken := by
  induction depth generalizing text segments with
  | zero =>
    cases split
    rw [List.forall_mem_singleton] at filled
    refine ⟨taken text, ?_, leaves_taken text⟩
    rw [booleans, decodeAs_boolean, if_neg filled]
  | succ depth ih =>
    obtain ⟨items, parts, found, ran, rfl⟩ := leafSegments_succ split
    obtain ⟨values, read, leaves⟩ := decode_items (fun _ _ => ih) ran filled
    refine ⟨.list values, ?_, leaves⟩
    rw [booleans, decodeAs_list found, read]
    rfl

end

/-! ## The law -/

section
variable {application : Option String}

theorem obeys_ok_iff {segments : List String} {value : Value}
    (leaves : value.leaves = segments.map taken) :
    Obeys application segments (.ok value) ↔ ∀ segment ∈ segments, truth? segment ≠ none := by
  constructor
  · intro law segment inside
    have same := law.success value rfl
    rw [leaves, List.map_map, List.map_inj_left] at same
    rw [← same segment inside]
    exact Option.some_ne_none _
  · intro words
    refine ⟨fun _ => ⟨value, rfl⟩, fun found same => ?_, fun before segment after e _ none => ?_⟩
    · cases same
      rw [leaves, List.map_map, List.map_inj_left]
      intro segment inside
      obtain ⟨word, said⟩ := Option.ne_none_iff_exists'.mp (words segment inside)
      rw [Function.comp_apply, taken, said, Option.getD_some]
    · exact absurd none (words segment (by rw [e]; simp))

theorem obeys_blank {text : String} (blank : trimmed text = "") :
    Obeys application [text]
      (.error (.decode .boolean (answer text application) (.boolean (trimmed text)))) := by
  refine ⟨fun words => ?_, fun _ same => ?_, fun before segment after e _ _ => ?_⟩
  · exact absurd (truth?_of_blank blank) (words text List.mem_cons_self)
  · cases same
  · obtain ⟨rfl, rfl, rfl⟩ : before = [] ∧ segment = text ∧ after = [] := by
      cases before <;> simp_all
    rfl

/-- A text of truth values in nested lists is read as what its segments are taken for if none of them
is blank. Reading it obeys the law exactly if each segment is a word or blank. -/
theorem decode_booleans_iff {depth : Nat} {text : String} {segments : List String}
    (split : leafSegments depth text = .ok segments) (locale : String) (applications : Registry)
    (application : Option String) :
    (Obeys application segments (decodeAs (builtin locale) applications (booleans depth)
        (answer text application)) ↔
      ∀ segment ∈ segments, truth? segment ≠ none ∨ trimmed segment = "") ∧
    ((∃ value, decodeAs (builtin locale) applications (booleans depth) (answer text application) =
        .ok value) ↔ ∀ segment ∈ segments, trimmed segment ≠ "") ∧
    ∀ value, decodeAs (builtin locale) applications (booleans depth) (answer text application) =
      .ok value → value.leaves = segments.map taken := by
  by_cases filled : ∀ segment ∈ segments, trimmed segment ≠ ""
  · obtain ⟨value, read, leaves⟩ := decodeAs_booleans locale applications application split filled
    rw [read, obeys_ok_iff leaves]
    refine ⟨?_, iff_of_true ⟨value, rfl⟩ filled, fun found same => ?_⟩
    · exact forall₂_congr fun segment inside => by simp [filled segment inside]
    · cases same
      exact leaves
  · -- A blank segment is the whole text, and no list.
    cases depth with
    | succ depth => exact absurd (filled_of_leafSegments split) filled
    | zero =>
      cases split
      have blank : trimmed text = "" := by simpa using filled
      rw [booleans, decodeAs_boolean, if_pos blank]
      refine ⟨iff_of_true (obeys_blank blank) (by simp [blank]), iff_of_false ?_ filled,
        fun _ same => ?_⟩
      · rintro ⟨_, same⟩
        cases same
      · cases same

/-- Words in nested lists are read as what they say; another segment among them is taken for false,
against the law. -/
theorem decode_booleans_nested :
    leafSegments 2 "\x7b\x7bTrue, missing value\x7d, \x7bfalse\x7d\x7d" =
        .ok ["True", "missing value", "false"] ∧
      Obeys none ["True", "missing value", "false"] (decodeAs (builtin "en_US") {} (booleans 2)
        (answer "\x7b\x7bTrue, missing value\x7d, \x7bfalse\x7d\x7d" none)) ∧
      leafSegments 1 "\x7btrue, yes\x7d" = .ok ["true", "yes"] ∧
      (∃ value, decodeAs (builtin "en_US") {} (booleans 1) (answer "\x7btrue, yes\x7d" none) =
        .ok value ∧ value.leaves = ["true", "yes"].map taken) ∧
      ¬Obeys none ["true", "yes"] (decodeAs (builtin "en_US") {} (booleans 1)
        (answer "\x7btrue, yes\x7d" none)) := by
  have words : leafSegments 2 "\x7b\x7bTrue, missing value\x7d, \x7bfalse\x7d\x7d" =
      .ok ["True", "missing value", "false"] := by rfl
  have other : leafSegments 1 "\x7btrue, yes\x7d" = .ok ["true", "yes"] := by rfl
  obtain ⟨lawful, -, -⟩ := decode_booleans_iff words "en_US" {} none
  obtain ⟨unlawful, accepted, leaves⟩ := decode_booleans_iff other "en_US" {} none
  obtain ⟨value, read⟩ := accepted.mpr (by decide)
  refine ⟨words, lawful.mpr (by decide), other, ⟨value, read, leaves value read⟩, fun law => ?_⟩
  exact absurd (unlawful.mp law) (by decide)

end

end ScriptBridge.Codec
