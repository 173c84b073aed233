import Mathlib.Data.List.Nodup
import ScriptBridge.Proofs.Codec.Leaves
/-!
Constants of enumerations, by their spellings.

A constant can be spelled by its name, by its code of four characters, and by a chevron that holds
the code after four asterisks. What is read is trimmed, then the asterisks of a chevron are dropped,
and the first constant that the result names is taken.

So each spelling has a condition under which it is read as its constant, and in an enumeration whose
constants can be told apart there is no other (`decode_spellings_iff`). A name must not be a chevron
that an earlier constant's code fits. A code must not have white space around it, unless what is
left of it is the constant's name; with white space the code itself cannot be found, since it has
four characters and the trimmed text has fewer. In a chevron, a code must not start with an
asterisk, which would be dropped with the others.
-/
namespace ScriptBridge.Codec

open Text

/-- An enumeration whose constants can be told apart: no name or code occurs twice, none is a word
for nothing, and codes have four characters. -/
structure Distinct (e : Enumeration) : Prop where
  names : (e.constants.map ConstantEntry.scriptName).Nodup
  codes : (e.constants.filterMap ConstantEntry.code).Nodup
  apart : ∀ c ∈ e.constants, ∀ d ∈ e.constants, c ≠ d → c.code ≠ some d.scriptName
  named : ∀ c ∈ e.constants, trimmed c.scriptName = c.scriptName ∧
    c.scriptName ∉ ["", "null", missingValue]
  coded : ∀ c ∈ e.constants, ∀ code ∈ c.code, code.toList.length = 4 ∧ trimmed code ≠ "" ∧
    code ≠ "null"

/-- A constant as a value. -/
def constantOf (e : Enumeration) (c : ConstantEntry) : Value :=
  .constant { enumeration := e.name, name := c.scriptName, code := c.code }

/-- The chevron that holds a code. -/
def constantChevron (code : String) : String := "«constant ****" ++ code ++ "»"

/-! ## Chevrons -/

theorem length_opening : "«constant ".toList.length = 10 := by decide

theorem constantCode?_short {s : List Char} (h : s.length < 11) : constantCode? s = none := by
  rw [constantCode?, Option.map_eq_none_iff]
  cases found : between? "«constant ".toList ['»'] s with
  | none => rfl
  | some inner =>
    have length := congrArg List.length (between?_iff.mp found)
    rw [List.length_append, List.length_append, length_opening, List.length_singleton] at length
    omega

theorem toList_constantChevron (code : String) :
    (constantChevron code).toList =
      "«constant ".toList ++ (['*', '*', '*', '*'] ++ code.toList) ++ ['»'] := by
  have opening : "«constant ****".toList = "«constant ".toList ++ ['*', '*', '*', '*'] := by decide
  change ("«constant ****" ++ code ++ "»").toList = _
  rw [String.toList_append, String.toList_append, opening, List.append_assoc, List.append_assoc,
    List.append_assoc]
  rfl

/-- The asterisks of the code are dropped with those of the chevron. -/
theorem constantCode?_chevron (code : String) :
    constantCode? (constantChevron code).toList =
      some (String.ofList (code.toList.dropWhile (· == '*'))) := by
  rw [constantCode?, toList_constantChevron, between?_append, Option.map_some]
  rfl

theorem dropStars_of_other {s : List Char} (h : s.head? ≠ some '*') :
    s.dropWhile (· == '*') = s := by
  cases s with
  | nil => rfl
  | cons c s =>
    apply List.dropWhile_cons_of_neg
    intro same
    rw [beq_iff_eq] at same
    rw [same] at h
    exact h rfl

theorem length_dropStars_lt {s : List Char} (h : s.head? = some '*') :
    (s.dropWhile (· == '*')).length < s.length := by
  obtain ⟨rest, rfl⟩ := List.head?_eq_some_iff.mp h
  have short := (List.dropWhile_suffix (p := (· == '*')) (l := rest)).length_le
  rw [List.dropWhile_cons_of_pos (by decide), List.length_cons]
  omega

theorem constantChevron_tight (code : String) : Tight (constantChevron code).toList := by
  rw [toList_constantChevron]
  exact Tight.of_ends (by decide) (by decide) _

theorem length_constantChevron (code : String) :
    (constantChevron code).toList.length = 15 + code.toList.length := by
  rw [toList_constantChevron, List.length_append, List.length_append, List.length_append,
    length_opening]
  simp only [List.length_cons, List.length_nil]
  omega

/-! ## What a text names -/

/-- Whether a text without white space around it is one of the spellings of a constant. -/
def isSpelling (text : String) (c : ConstantEntry) : Bool :=
  isConstant text (constantCode? text.toList) c

theorem isSpelling_iff {text : String} {c : ConstantEntry} :
    isSpelling text c = true ↔
      c.scriptName = text ∨ c.code = some text ∨
        ∃ code, constantCode? text.toList = some code ∧ c.code = some code := by
  rw [isSpelling, isConstant, Bool.or_eq_true, Bool.or_eq_true, beq_iff_eq, beq_iff_eq, or_assoc,
    Bool.and_eq_true, beq_iff_eq]
  refine or_congr_right (or_congr_right ?_)
  cases constantCode? text.toList <;> simp

/-- A text that holds something is read as the first constant that it spells. -/
theorem decodeConstant_of_filled {applications : Registry} {application : Option String}
    {name text : String} {e : Enumeration}
    (found : applications.enumeration? application name = some e)
    (filled : isMissing (some text) = false) :
    decodeConstant applications name (answer text application) =
      match e.constants.find? (isSpelling (trimmed text)) with
      | some c => .ok (constantOf e c)
      | none => .error (.config (.notAConstant (trimmed text) name)) := by
  rw [← isMissing_trimmed] at filled
  simp only [answer, decodeConstant, Reference.objectText, Option.getD_some, filled,
    Bool.false_eq_true, if_false, found]
  rfl

theorem find?_place_iff {α : Type} {p : α → Bool} {before after : List α} {c : α}
    (new : c ∉ before) :
    (before ++ c :: after).find? p = some c ↔ p c = true ∧ ∀ d ∈ before, ¬ p d = true := by
  rw [List.find?_append]
  cases found : before.find? p with
  | none =>
    rw [List.find?_eq_none] at found
    rw [Option.none_or, and_iff_left found]
    constructor
    · intro h
      exact List.find?_some h
    · intro h
      rw [List.find?_cons, h]
  | some d =>
    have hd := List.mem_of_find?_eq_some found
    apply iff_of_false
    · rw [Option.some_or, Option.some.injEq]
      exact ne_of_mem_of_not_mem hd new
    · intro h
      exact h.2 d hd (List.find?_some found)

/-- A constant of an enumeration, at its place among the constants. -/
structure Placed (e : Enumeration) (before : List ConstantEntry) (c : ConstantEntry) : Prop where
  distinct : Distinct e
  place : ∃ after, e.constants = before ++ c :: after

/-- Only a text of four characters is a code. -/
theorem Distinct.code_ne_of_length {e : Enumeration} (h : Distinct e) {c : ConstantEntry}
    (hc : c ∈ e.constants) {text : String} (length : text.toList.length ≠ 4) :
    c.code ≠ some text := by
  intro coded
  exact length (h.coded c hc text coded).1

theorem Distinct.isMissing_code {e : Enumeration} (h : Distinct e) {c : ConstantEntry}
    (hc : c ∈ e.constants) {code : String} (coded : c.code = some code) :
    isMissing (some code) = false := by
  obtain ⟨four, something, word⟩ := h.coded c hc code coded
  -- Trimmed, it is as long as one of the words only if it is that word as it stands.
  have other {text : String} (long : 4 ≤ text.toList.length) (differs : code ≠ text) :
      trimmed code ≠ text := by
    intro same
    by_cases kept : trimmed code = code
    · exact differs (kept.symm.trans same)
    · have short := length_trimmed_lt kept
      rw [same, four] at short
      omega
  have missing : code ≠ missingValue := by
    rintro rfl
    exact absurd four (by decide)
  simp only [isMissing, Bool.or_eq_false_iff, decide_eq_false_iff_not]
  exact ⟨⟨something, other (by decide) word⟩, other (by decide) missing⟩

namespace Placed
variable {e : Enumeration} {before : List ConstantEntry} {c d : ConstantEntry}
  (h : Placed e before c)
include h

theorem mem : c ∈ e.constants := by
  obtain ⟨after, place⟩ := h.place
  rw [place]
  exact List.mem_append_right _ List.mem_cons_self

theorem mem_before (hd : d ∈ before) : d ∈ e.constants := by
  obtain ⟨after, place⟩ := h.place
  rw [place]
  exact List.mem_append_left _ hd

theorem scriptName_ne (hd : d ∈ before) : d.scriptName ≠ c.scriptName := by
  obtain ⟨after, place⟩ := h.place
  have names := h.distinct.names
  rw [place, List.map_append, List.nodup_append] at names
  exact names.2.2 _ (List.mem_map_of_mem hd) _ (List.mem_map_of_mem List.mem_cons_self)

theorem notMem : c ∉ before := fun hc => h.scriptName_ne hc rfl

theorem code_ne (hd : d ∈ before) {code : String} (hc : c.code = some code) :
    d.code ≠ some code := by
  obtain ⟨after, place⟩ := h.place
  have codes := h.distinct.codes
  rw [place, List.filterMap_append, List.nodup_append] at codes
  intro same
  exact codes.2.2 code (List.mem_filterMap.mpr ⟨d, hd, same⟩) code
    (List.mem_filterMap.mpr ⟨c, List.mem_cons_self, hc⟩) rfl

/-- A text is read as the constant if it names it and no earlier one. -/
theorem decodeAs_iff {locale name text : String} {applications : Registry}
    {application : Option String} (found : applications.enumeration? application name = some e)
    (filled : isMissing (some text) = false) :
    decodeAs (builtin locale) applications (.enumeration name) (answer text application) =
        .ok (constantOf e c) ↔
      isSpelling (trimmed text) c = true ∧
        ∀ d ∈ before, ¬ isSpelling (trimmed text) d = true := by
  obtain ⟨after, place⟩ := h.place
  have same {d : ConstantEntry} (hd : d ∈ e.constants) :
      Except.ok (ε := ScriptError) (constantOf e d) = .ok (constantOf e c) ↔ d = c := by
    constructor
    · intro equal
      have names : d.scriptName = c.scriptName :=
        congrArg EnumConstant.name (Value.constant.inj (Except.ok.inj equal))
      exact List.inj_on_of_nodup_map h.distinct.names hd h.mem names
    · rintro rfl
      rfl
  have first : e.constants.find? (isSpelling (trimmed text)) = some c ↔
      isSpelling (trimmed text) c = true ∧
        ∀ d ∈ before, ¬ isSpelling (trimmed text) d = true := by
    rw [place]
    exact find?_place_iff h.notMem
  rw [← first, decodeAs_enumeration, decodeConstant_of_filled found filled]
  cases named : e.constants.find? (isSpelling (trimmed text)) with
  | none => simp
  | some d =>
    rw [Option.some.injEq]
    exact same (List.mem_of_find?_eq_some named)

/-! ## The three spellings -/

section
variable {locale name : String} {applications : Registry} {application : Option String}
  (found : applications.enumeration? application name = some e)
include found

/-- A name is read as its constant unless it is a chevron for an earlier one. -/
theorem decodeAs_name_iff :
    decodeAs (builtin locale) applications (.enumeration name)
        (answer c.scriptName application) = .ok (constantOf e c) ↔
      ∀ d ∈ before, ∀ code ∈ d.code, constantCode? c.scriptName.toList ≠ some code := by
  obtain ⟨trimmed, words⟩ := h.distinct.named c h.mem
  have filled : isMissing (some c.scriptName) = false := by
    simpa [isMissing, trimmed, and_assoc] using words
  rw [h.decodeAs_iff found filled, trimmed, isSpelling_iff, and_iff_right (.inl rfl)]
  refine forall₂_congr fun d hd => ?_
  have apart : d.code ≠ some c.scriptName := by
    apply h.distinct.apart d (h.mem_before hd) c h.mem
    exact ne_of_mem_of_not_mem hd h.notMem
  rw [isSpelling_iff, or_iff_right (h.scriptName_ne hd), or_iff_right apart]
  constructor
  · intro none code hd same
    exact none ⟨code, same, hd⟩
  · rintro none ⟨code, same, hd⟩
    exact none code hd same

variable {code : String} (hc : c.code = some code)
include hc

/-- A code is read as its constant if it has no white space around it, or leaves the name. -/
theorem decodeAs_code_iff :
    decodeAs (builtin locale) applications (.enumeration name) (answer code application) =
        .ok (constantOf e c) ↔
      trimmed code = code ∨ trimmed code = c.scriptName := by
  have four := (h.distinct.coded c h.mem code hc).1
  have filled := h.distinct.isMissing_code h.mem hc
  by_cases kept : trimmed code = code
  · -- The code is found, and it is neither the name nor the code of another constant.
    have plain : constantCode? code.toList = none := constantCode?_short (by omega)
    rw [h.decodeAs_iff found filled, kept]
    refine iff_of_true ⟨isSpelling_iff.mpr (.inr (.inl hc)), ?_⟩ (.inl rfl)
    intro d hd
    have apart : d.scriptName ≠ code := by
      rintro rfl
      exact h.distinct.apart c h.mem d (h.mem_before hd)
        (ne_of_mem_of_not_mem hd h.notMem).symm hc
    rw [isSpelling_iff, plain, or_iff_right apart, or_iff_right (h.code_ne hd hc)]
    simp
  · -- What is left is too short for a code, so only names count.
    have short := length_trimmed_lt kept
    rw [four] at short
    have plain : constantCode? (trimmed code).toList = none := constantCode?_short (by omega)
    have names {d : ConstantEntry} (hd : d ∈ e.constants) :
        isSpelling (trimmed code) d = true ↔
          d.scriptName = trimmed code := by
      have uncoded := h.distinct.code_ne_of_length hd (Nat.ne_of_lt short)
      rw [isSpelling_iff, plain, or_iff_right uncoded]
      simp
    rw [h.decodeAs_iff found filled, names h.mem, or_iff_right kept]
    constructor
    · rintro ⟨named, -⟩
      exact named.symm
    · intro named
      refine ⟨named.symm, ?_⟩
      intro d hd
      rw [names (h.mem_before hd), named]
      exact h.scriptName_ne hd

/-- A chevron is read as the constant of its code if the code does not start with an asterisk and no
earlier constant has the chevron for a name, or if it is this constant's name itself. -/
theorem decodeAs_chevron_iff :
    decodeAs (builtin locale) applications (.enumeration name)
        (answer (constantChevron code) application) = .ok (constantOf e c) ↔
      c.scriptName = constantChevron code ∨
        (code.toList.head? ≠ some '*' ∧ ∀ d ∈ before, d.scriptName ≠ constantChevron code) := by
  have four := (h.distinct.coded c h.mem code hc).1
  have tight := constantChevron_tight code
  have filled : isMissing (some (constantChevron code)) = false := by
    apply isMissing_eq_false tight
    rw [toList_constantChevron, show "«constant ".toList = '«' :: "constant ".toList from by decide]
    simp
  have names {d : ConstantEntry} (hd : d ∈ e.constants) :
      isSpelling (constantChevron code) d = true ↔
        d.scriptName = constantChevron code ∨
          d.code = some (String.ofList (code.toList.dropWhile (· == '*'))) := by
    have length : (constantChevron code).toList.length ≠ 4 := by
      rw [length_constantChevron]
      omega
    have uncoded := h.distinct.code_ne_of_length hd length
    rw [isSpelling_iff, or_iff_right uncoded, constantCode?_chevron]
    simp
  rw [h.decodeAs_iff found filled, trimmed_of_tight tight, names h.mem]
  by_cases star : code.toList.head? = some '*'
  · -- With the first asterisk gone, what is left is too short for a code.
    have uncoded {d : ConstantEntry} (hd : d ∈ e.constants) :
        d.code ≠ some (String.ofList (code.toList.dropWhile (· == '*'))) := by
      apply h.distinct.code_ne_of_length hd
      have short := length_dropStars_lt star
      rw [String.toList_ofList]
      omega
    rw [or_iff_left (uncoded h.mem), or_iff_left fun both => both.1 star]
    constructor
    · exact And.left
    · intro named
      refine ⟨named, ?_⟩
      intro d hd
      rw [names (h.mem_before hd), or_iff_left (uncoded (h.mem_before hd)), ← named]
      exact h.scriptName_ne hd
  · rw [dropStars_of_other star, String.ofList_toList] at names ⊢
    have others : (∀ d ∈ before, ¬ isSpelling (constantChevron code) d = true) ↔
          ∀ d ∈ before, d.scriptName ≠ constantChevron code := by
      refine forall₂_congr fun d hd => ?_
      rw [names (h.mem_before hd), or_iff_left (h.code_ne hd hc)]
    rw [others]
    constructor
    · rintro ⟨-, none⟩
      exact .inr ⟨star, none⟩
    · rintro (named | ⟨-, none⟩)
      · refine ⟨.inr hc, ?_⟩
        intro d hd
        rw [← named]
        exact h.scriptName_ne hd
      · exact ⟨.inr hc, none⟩

end

end Placed

/-- Each spelling of a constant is read as that constant exactly under its condition. -/
theorem decode_spellings_iff {applications : Registry} {application : Option String} {name : String}
    {e : Enumeration} (found : applications.enumeration? application name = some e)
    (distinct : Distinct e) {before after : List ConstantEntry} {c : ConstantEntry}
    (place : e.constants = before ++ c :: after) (locale : String) :
    let reads (text : String) := decodeAs (builtin locale) applications (.enumeration name)
      (answer text application) = .ok (constantOf e c)
    (reads c.scriptName ↔
      ∀ d ∈ before, ∀ code ∈ d.code, constantCode? c.scriptName.toList ≠ some code) ∧
    ∀ code ∈ c.code,
      (reads code ↔ trimmed code = code ∨ trimmed code = c.scriptName) ∧
      (reads (constantChevron code) ↔ c.scriptName = constantChevron code ∨
        (code.toList.head? ≠ some '*' ∧ ∀ d ∈ before, d.scriptName ≠ constantChevron code)) := by
  have h : Placed e before c := ⟨distinct, after, place⟩
  exact ⟨h.decodeAs_name_iff found, fun code hc =>
    ⟨h.decodeAs_code_iff found hc, h.decodeAs_chevron_iff found hc⟩⟩

namespace Alerts

/-- What an application does about a warning, with codes that have spaces and an asterisk. -/
def options : Enumeration where
  name := "Option"
  constants := [
    { name := "YES", scriptName := "yes", code := some "yes " },
    { name := "ASK", scriptName := "always ask", code := some "ask " },
    { name := "DOT", scriptName := "only a dot", code := some "*dot" }]

def monitor : String := "application \"Monitor\""

/-- The registry that knows the application. -/
def applications : Registry :=
  match Registry.register {}
      { interface := "Monitor", classes := [{ interface := "Monitor" }], enumerations := [options] }
      monitor with
  | .ok (_, registry) => registry
  | .error _ => {}

theorem distinct : Distinct options where
  names := by decide
  codes := by decide
  apart := by decide
  named := by decide +kernel
  coded := by decide +kernel

/-- Of the spellings of a constant whose code ends in a space, the name and the chevron are read,
and the code is not, unless the name is what the code is without the space. A chevron whose code
starts with an asterisk is not read. -/
theorem decode_spellings_option :
    let decode (text : String) := decodeAs (builtin "en_US") applications (.enumeration "Option")
      (answer text (some monitor))
    let value (i : Fin 3) := constantOf options (options.constants.get i)
    (decode "always ask" = .ok (value 1) ∧ decode "«constant ****ask »" = .ok (value 1) ∧
      decode "ask " ≠ .ok (value 1)) ∧
    decode "yes " = .ok (value 0) ∧ decode "*dot" = .ok (value 2) ∧
    decode "«constant *****dot»" ≠ .ok (value 2) := by
  have found : applications.enumeration? (some monitor) "Option" = some options := rfl
  have first : options.constants = [] ++ options.constants[0] :: options.constants.drop 1 := rfl
  have second : options.constants =
      [options.constants[0]] ++ options.constants[1] :: options.constants.drop 2 := rfl
  have third : options.constants =
      [options.constants[0], options.constants[1]] ++ options.constants[2] :: [] := rfl
  obtain ⟨-, yes⟩ := decode_spellings_iff found distinct first "en_US"
  obtain ⟨named, ask⟩ := decode_spellings_iff found distinct second "en_US"
  obtain ⟨-, dot⟩ := decode_spellings_iff found distinct third "en_US"
  obtain ⟨yes, -⟩ := yes "yes " rfl
  obtain ⟨ask, askChevron⟩ := ask "ask " rfl
  obtain ⟨dot, dotChevron⟩ := dot "*dot" rfl
  refine ⟨⟨named.mpr (by decide), askChevron.mpr (by decide), ?_⟩, yes.mpr (by decide +kernel),
    dot.mpr (by decide +kernel), ?_⟩
  · exact mt ask.mp (by decide +kernel)
  · exact mt dotChevron.mp (by decide)

end Alerts

end ScriptBridge.Codec
