import ScriptBridge.Proofs.Codec.Files
import ScriptBridge.Proofs.Codec.Stable
/-!
Aliases that are written and read again.

An alias is written as its specifier, so it comes back if its path is what that specifier is read
as. That holds of every alias that was read from a specifier. An alias that was read from a bare
path has the specifier of that path, and what stands in its quotes is taken for volume and folders
divided by colons and put under `/Volumes/`, which never is the path itself
(`readAlias_ofPath_ne`, `alias_reread_iff`).

Reading the specifier of a path as files are read would give back every path whose characters are
bare (`path_decoded_iff`).
-/
namespace ScriptBridge

open Text

namespace Literal

/-- The body of a literal, up to its last quote, starts as the ASCII run at the start of the text
is written. -/
theorem exists_body_of_run (s : List Char) : ∃ run more body tail, s = run ++ more ∧
    (∀ c ∈ run, isPlain c = true) ∧ (∀ c ∈ more.head?, isPlain c = false) ∧
      quoteInString s = body ++ '"' :: tail ∧ '"' ∉ tail ∧ escape run <+: body := by
  obtain plain | ⟨run, c, rest, rfl, plain, hc⟩ := exists_run s
  · have written := quoteInString_append plain []
    rw [List.append_nil] at written
    exact ⟨s, [], escape s, [')'], s.append_nil.symm, plain, nofun, written, by decide,
      List.prefix_refl _⟩
  · obtain ⟨body, tail, e, ht, reach⟩ :=
      exists_lastQuote (escape run) (Group.opensData c ++ quoteInData rest)
    have start : escape run <+: body := by
      refine List.prefix_of_prefix_length_le ((List.prefix_append _ _).trans reach)
        (List.prefix_append _ _) ?_
      have := reach.length_le
      rw [List.length_append, List.length_append] at this
      omega
    refine ⟨run, c :: rest, body, tail, rfl, plain, by simpa using hc, ?_, ht, start⟩
    rw [quoteInString_append plain, Group.quoteInString_other hc, e]

end Literal

namespace Codec

open Literal

theorem toList_mountedPath (colons : List Char) : (mountedPath colons).toList =
    "/Volumes/".toList ++ colons.map fun c => if c = ':' then '/' else c :=
  String.toList_ofList

/-- The path of a body starts with ASCII characters, more of them than the run that the body starts
as. -/
theorem exists_opening {run body : List Char} (plain : ∀ c ∈ run, isPlain c = true)
    (start : escape run <+: body) : ∃ opening, opening <+: (mountedPath body).toList ∧
      (∀ c ∈ opening, isPlain c = true) ∧ run.length < opening.length := by
  obtain ⟨rest, rfl⟩ := start
  refine ⟨(mountedPath (escape run)).toList, ?_, fun c hc => ?_, ?_⟩
  · rw [toList_mountedPath, toList_mountedPath, List.map_append, ← List.append_assoc]
    exact List.prefix_append _ _
  · rw [toList_mountedPath] at hc
    rcases List.mem_append.mp hc with hc | hc
    · exact List.all_eq_true.mp (by decide : "/Volumes/".toList.all isPlain = true) c hc
    · obtain ⟨d, hd, rfl⟩ := List.mem_map.mp hc
      split
      · decide
      · exact isPlain_of_mem_escape plain hd
  · have := length_le_escape run
    have named : "/Volumes/".toList.length = 9 := by decide
    rw [toList_mountedPath, List.length_append, List.length_map, named]
    omega

theorem mountedPath_ne {run more body : List Char} (plain : ∀ c ∈ run, isPlain c = true)
    (other : ∀ c ∈ more.head?, isPlain c = false) (start : escape run <+: body) :
    (mountedPath body).toList ≠ run ++ more := by
  intro same
  obtain ⟨opening, within, ascii, longer⟩ := exists_opening plain start
  rw [same] at within
  cases more with
  | nil =>
    have := within.length_le
    rw [List.append_nil] at this
    omega
  | cons c rest =>
    -- The opening reaches over the first character beyond ASCII.
    have reached : run ++ [c] <+: opening := by
      refine List.prefix_of_prefix_length_le ⟨rest, by simp⟩ within ?_
      rw [List.length_append, List.length_singleton]
      exact longer
    have := ascii c (reached.subset (by simp))
    rw [other c rfl] at this
    cases this

/-- The specifier of a path is read as an alias with another path. -/
theorem readAlias_ofPath_ne (p : String) :
    ∃ q, readAlias (FileSpecifier.ofPath p).specifier =
      { path := q, specifier := (FileSpecifier.ofPath p).specifier } ∧ q ≠ p := by
  obtain ⟨run, more, body, tail, whole, plain, other, written, ht, start⟩ :=
    exists_body_of_run p.toList
  refine ⟨mountedPath body, ?_, fun same => mountedPath_ne plain other start ?_⟩
  · have opened : (FileSpecifier.ofPath p).specifier.toList.head? ≠ some '/' := by
      rw [toList_ofPath]
      simp
    simp only [readAlias, opened, if_false, betweenOuter?_ofPath written ht]
  · rw [same, whole]

theorem readAlias_of_head {s : String} (h : s.toList.head? = some '/') :
    readAlias s = .ofPath s := by
  rw [readAlias, if_pos h]

theorem specifier_readAlias {s : String} (h : s.toList.head? ≠ some '/') :
    (readAlias s).specifier = s := by
  rw [readAlias, if_neg h]

theorem alias_decode {text : String} (filled : isMissing (some text) = false)
    (application : Option String) :
    fileAlias.decode (answer text application) = .ok (.fileAlias (readAlias (trimmed text))) := by
  simp only [fileAlias, answer, filled, Bool.false_eq_true, if_false, Reference.objectText,
    Option.getD_some]

theorem of_alias_decode {text : String} {application : Option String} {f : FileSpecifier}
    (h : fileAlias.decode (answer text application) = .ok (.fileAlias f)) :
    isMissing (some text) = false ∧ f = readAlias (trimmed text) := by
  simp only [fileAlias, answer, Reference.objectText, Option.getD_some] at h
  obtain none | ⟨filled, found⟩ := present_ok h
  · cases none
  · exact ⟨filled, Value.fileAlias.inj found⟩

/-- An alias that was read is written and read again, with the same specifier. It comes back exactly
if it was not read from a bare path. -/
theorem alias_reread_iff {locale text : String} {applications : Registry}
    {application : Option String} {f : FileSpecifier}
    (h : decodeAs (builtin locale) applications .fileAlias (answer text application) =
      .ok (.fileAlias f)) :
    ∃ written again, encodeAs (builtin locale) applications (.fileAlias f) = .ok written ∧
      decodeAs (builtin locale) applications .fileAlias (answer written application) =
        .ok (.fileAlias again) ∧
      again.specifier = f.specifier ∧ (again = f ↔ (trim text.toList).head? ≠ some '/') := by
  have listed : (Value.fileAlias f).valueType ∈ codecTypes :=
    (by decide : ValueType.fileAlias ∈ codecTypes)
  have codec : find? (builtin locale) .fileAlias = some fileAlias := rfl
  obtain ⟨filled, rfl⟩ := of_alias_decode (decode_of_decodeAs codec h)
  have trimmedText : (trimmed text).toList = trim text.toList := by
    rw [trimmed, String.toList_ofList]
  rw [← trimmedText]
  by_cases bare : (trimmed text).toList.head? = some '/'
  · obtain ⟨q, read, other⟩ := readAlias_ofPath_ne (trimmed text)
    rw [readAlias_of_head bare] at listed ⊢
    have again := alias_decode (isMissing_ofPath (trimmed text)) application
    rw [trimmed_of_tight (tight_ofPath _), read] at again
    refine ⟨_, _, encodeAs_of_codec listed codec applications,
      decodeAs_of_codec codec again applications, rfl, iff_of_false ?_ (not_not_intro bare)⟩
    exact fun same => other (congrArg FileSpecifier.path same)
  · rw [← isMissing_trimmed] at filled
    have again := alias_decode filled application
    rw [trimmed_trimmed] at again
    refine ⟨trimmed text, _, ?_, decodeAs_of_codec codec again applications, rfl,
      iff_of_true rfl bare⟩
    rw [encodeAs_of_codec listed codec]
    exact congrArg Except.ok (specifier_readAlias bare)

/-- The alias of a bare path comes back with another path. -/
theorem alias_reread_path :
    decodeAs (builtin "en_US") {} .fileAlias (answer " /Users/me" none) =
        .ok (.fileAlias (.ofPath "/Users/me")) ∧
      ∃ written again,
        encodeAs (builtin "en_US") {} (.fileAlias (.ofPath "/Users/me")) = .ok written ∧
        decodeAs (builtin "en_US") {} .fileAlias (answer written none) = .ok (.fileAlias again) ∧
        again.specifier = (FileSpecifier.ofPath "/Users/me").specifier ∧
        (again = .ofPath "/Users/me" ↔ (trim " /Users/me".toList).head? ≠ some '/') := by
  have decoded : decodeAs (builtin "en_US") {} .fileAlias (answer " /Users/me" none) =
      .ok (.fileAlias (.ofPath "/Users/me")) := by
    have filled : isMissing (some " /Users/me") = false := by decide
    have read : readAlias (trimmed " /Users/me") = .ofPath "/Users/me" := by decide
    have found := alias_decode filled none
    rw [read] at found
    exact decodeAs_of_codec (show find? (builtin "en_US") .fileAlias = some fileAlias from rfl)
      found {}
  exact ⟨decoded, alias_reread_iff decoded⟩

-- The path stands in quotes and is put under another one.
example : (readAlias (FileSpecifier.ofPath "/Users/me").specifier).path = "/Volumes//Users/me" := by
  decide

end Codec
end ScriptBridge
