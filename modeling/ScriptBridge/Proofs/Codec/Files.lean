import ScriptBridge.Proofs.Codec.Leaves
import ScriptBridge.Proofs.Text.Occurrences
/-!
Files on the wire.

The specifier of the file at a path holds the path as a literal. It is read by its outer quotes: the
path is what stands between them (`readFile_ofPath`), as it is written there, with escapes left in,
with data in the middle taken for characters of the path, and with data at the end left out. So a
path comes back exactly if it has nothing to escape and no character beyond ASCII (`exists_body`,
`path_decoded_iff`).

Reading the literal with `Literal.unquote` instead would give back every path
(`Literal.unquote_quote`).
-/
namespace ScriptBridge

open Text

namespace Literal

/-! ## Literals that write a text as it is -/

/-- Whether a character is written in a literal as it is. -/
def IsBare (c : Char) : Prop := isPlain c = true ∧ c ≠ '"' ∧ c ≠ '\\'

instance : DecidablePred IsBare := fun c =>
  inferInstanceAs (Decidable (isPlain c = true ∧ c ≠ '"' ∧ c ≠ '\\'))

theorem length_le_escape (s : List Char) : s.length ≤ (escape s).length := by
  induction s with
  | nil => exact Nat.le_refl _
  | cons c s ih =>
    have one : 1 ≤ (escapeChar c).length := by
      unfold escapeChar
      split <;> simp
    rw [escape, List.flatMap_cons, List.length_append, List.length_cons]
    unfold escape at ih
    omega

theorem escape_eq_self_iff (s : List Char) : escape s = s ↔ ∀ c ∈ s, c ≠ '"' ∧ c ≠ '\\' := by
  induction s with
  | nil => simp [escape]
  | cons c s ih =>
    have long := length_le_escape s
    rw [List.forall_mem_cons, ← ih]
    by_cases hc : c = '"' ∨ c = '\\'
    · -- An escaped character makes the body longer than the text.
      have written : escape (c :: s) = '\\' :: c :: escape s := by simp [escape, escapeChar, hc]
      rw [written]
      refine iff_of_false (fun h => ?_) fun h => hc.elim h.1.1 h.1.2
      have := congrArg List.length h
      simp only [List.length_cons] at this
      omega
    · have written : escape (c :: s) = c :: escape s := by simp [escape, escapeChar, hc]
      rw [written, List.cons.injEq, eq_self, true_and]
      exact (and_iff_right (not_or.mp hc)).symm

theorem isPlain_of_mem_escape {s : List Char} (h : ∀ c ∈ s, isPlain c = true) {c : Char}
    (hc : c ∈ escape s) : isPlain c = true := by
  obtain ⟨d, hd, hc⟩ := List.mem_flatMap.mp hc
  unfold escapeChar at hc
  split at hc
  · rcases List.mem_pair.mp hc with rfl | rfl
    · decide
    · exact h _ hd
  · rw [List.mem_singleton.mp hc]
    exact h d hd

theorem quoteInString_append {run : List Char} (h : ∀ c ∈ run, isPlain c = true)
    (rest : List Char) : quoteInString (run ++ rest) = escape run ++ quoteInString rest := by
  induction run with
  | nil => rfl
  | cons c run ih =>
    rw [List.forall_mem_cons] at h
    rw [List.cons_append, Group.quoteInString_plain h.1, ih h.2, escape, escape,
      List.flatMap_cons, List.append_assoc]

theorem exists_run (s : List Char) : (∀ c ∈ s, isPlain c = true) ∨
    ∃ run c rest, s = run ++ c :: rest ∧ (∀ d ∈ run, isPlain d = true) ∧ isPlain c = false := by
  induction s with
  | nil => exact .inl nofun
  | cons c s ih =>
    cases hc : isPlain c with
    | false => exact .inr ⟨[], c, s, rfl, nofun, hc⟩
    | true =>
      obtain h | ⟨run, d, rest, rfl, hrun, hd⟩ := ih
      · exact .inl (List.forall_mem_cons.mpr ⟨hc, h⟩)
      · exact .inr ⟨c :: run, d, rest, rfl, List.forall_mem_cons.mpr ⟨hc, hrun⟩, hd⟩

/-- What ends with the last quote of a text reaches as far as what ends with any of its quotes. -/
theorem exists_lastQuote (before after : List Char) : ∃ body tail,
    before ++ '"' :: after = body ++ '"' :: tail ∧ '"' ∉ tail ∧
      before ++ ['"'] <+: body ++ ['"'] := by
  by_cases h : '"' ∈ after
  · obtain ⟨tail, reach, e, ht⟩ := List.eq_append_cons_of_mem (List.mem_reverse.mpr h)
    have whole : after = reach.reverse ++ '"' :: tail.reverse := by
      rw [← List.reverse_reverse after, e]
      simp
    refine ⟨before ++ '"' :: reach.reverse, tail.reverse, ?_, by simpa using ht, ?_⟩
    · rw [whole]
      simp
    · exact ⟨reach.reverse ++ ['"'], by simp⟩
  · exact ⟨before, after, rfl, h, List.prefix_refl _⟩

/-- The body of a literal, up to its last quote, is the text itself exactly if all of its characters
are bare. -/
theorem exists_body (s : List Char) : ∃ body tail, quoteInString s = body ++ '"' :: tail ∧
    '"' ∉ tail ∧ (body = s ↔ ∀ c ∈ s, IsBare c) := by
  obtain plain | ⟨run, c, rest, rfl, plain, hc⟩ := exists_run s
  · refine ⟨escape s, [')'], ?_, by decide, ?_⟩
    · have h := quoteInString_append plain []
      rw [List.append_nil] at h
      exact h
    · rw [escape_eq_self_iff]
      exact ⟨fun h d hd => ⟨plain d hd, h d hd⟩, fun h d hd => (h d hd).2⟩
  · obtain ⟨body, tail, e, ht, reach⟩ :=
      exists_lastQuote (escape run) (Group.opensData c ++ quoteInData rest)
    refine ⟨body, tail, ?_, ht, iff_of_false ?_ ?_⟩
    · rw [quoteInString_append plain, Group.quoteInString_other hc, e]
    · -- The body has an ASCII character, be it a quote, where the text has one that is none.
      rintro rfl
      have start : run ++ [c] <+: run ++ c :: rest ++ ['"'] := ⟨rest ++ ['"'], by simp⟩
      have within : run ++ [c] <+: escape run ++ ['"'] := by
        refine List.prefix_of_prefix_length_le start reach ?_
        have := length_le_escape run
        simpa using this
      have hm : c ∈ escape run ++ ['"'] := within.subset (by simp)
      rw [List.mem_append, List.mem_singleton] at hm
      rw [hm.elim (isPlain_of_mem_escape plain) fun h => by rw [h]; rfl] at hc
      cases hc
    · intro h
      have := (h c (by simp)).1
      rw [hc] at this
      cases this

end Literal

/-! ## Specifiers of paths -/

namespace Codec

open Literal

theorem toList_ofPath (p : String) : (FileSpecifier.ofPath p).specifier.toList =
    '(' :: ("POSIX file ".toList ++ quote p.toList) ++ [')'] := by
  simp [FileSpecifier.ofPath]

/-- Between the outer quotes of a specifier stands the body of the literal in it. -/
theorem betweenOuter?_ofPath {p : String} {body tail : List Char}
    (h : quoteInString p.toList = body ++ '"' :: tail) (ht : '"' ∉ tail) :
    betweenOuter? '"' (FileSpecifier.ofPath p).specifier.toList = some body := by
  have text : (FileSpecifier.ofPath p).specifier.toList =
      "(POSIX file (".toList ++ '"' :: (body ++ '"' :: (tail ++ [')'])) := by
    rw [toList_ofPath, quote, h]
    simp
  rw [text]
  apply betweenOuter?_append
  · decide
  · simp [ht]

theorem readFile_ofPath {p : String} {body tail : List Char}
    (h : quoteInString p.toList = body ++ '"' :: tail) (ht : '"' ∉ tail) :
    readFile (FileSpecifier.ofPath p).specifier =
      { path := String.ofList body, specifier := (FileSpecifier.ofPath p).specifier } := by
  have isPath : Text.contains (FileSpecifier.ofPath p).specifier.toList "POSIX file".toList =
      true := by
    rw [contains_iff, toList_ofPath]
    exact ⟨['('], ' ' :: (quote p.toList ++ [')']), by simp⟩
  simp only [readFile, isPath, betweenOuter?_ofPath h ht, if_true]

theorem tight_ofPath (p : String) : Tight (FileSpecifier.ofPath p).specifier.toList := by
  rw [toList_ofPath]
  exact Tight.of_ends (by decide) (by decide) _

theorem isMissing_ofPath (p : String) :
    isMissing (some (FileSpecifier.ofPath p).specifier) = false := by
  apply isMissing_eq_false (tight_ofPath p)
  rw [toList_ofPath]
  simp

theorem file_decode_ofPath (p : String) (application : Option String) :
    Codec.file.decode (answer (FileSpecifier.ofPath p).specifier application) =
      .ok (.file (readFile (FileSpecifier.ofPath p).specifier)) := by
  rw [file_decode (isMissing_ofPath p), trimmed_of_tight (tight_ofPath p)]

/-- The file at any path is written as its specifier and read from it as a file with that specifier;
its path comes back exactly if all of its characters are bare. -/
theorem path_decoded_iff (locale : String) (applications : Registry) (application : Option String)
    (p : String) :
    ∃ text file, encodeAs (builtin locale) applications (.file (.ofPath p)) = .ok text ∧
      decodeAs (builtin locale) applications .file (answer text application) = .ok (.file file) ∧
      file.specifier = text ∧ (file.path = p ↔ ∀ c ∈ p.toList, IsBare c) := by
  have listed : (Value.file (.ofPath p)).valueType ∈ codecTypes :=
    (by decide : ValueType.file ∈ codecTypes)
  have codec : find? (builtin locale) .file = some Codec.file := rfl
  obtain ⟨body, tail, h, ht, same⟩ := exists_body p.toList
  have decoded := file_decode_ofPath p application
  rw [readFile_ofPath h ht] at decoded
  refine ⟨_, _, encodeAs_of_codec listed codec applications,
    decodeAs_of_codec codec decoded applications, rfl, ?_⟩
  rw [← same, ← String.toList_inj, String.toList_ofList]

-- Data at the end is lost; an escaping backslash is taken for part of the path.
example : (readFile (FileSpecifier.ofPath "/é").specifier).path = "/" := by decide
example : (readFile (FileSpecifier.ofPath "/\"").specifier).path = "/\\\"" := by decide

end Codec
end ScriptBridge
