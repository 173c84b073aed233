import ScriptBridge.Codec.Basic
import ScriptBridge.Group
import ScriptBridge.Proofs.Text.Trim
import ScriptBridge.Proofs.Value.Outcomes
/-!
What the segments of a split text are, and what the entries of a record say about its text.

Segments are trimmed and never empty, those of lists like those of records (`splitList_tight`). The
values of a record are trimmed too, and a record with an entry has a colon (`splitRecord_entry`), so
that it is none of the words that stand for nothing (`isMissing_of_mem`).
-/
namespace ScriptBridge.Group

open Text

theorem mem_pushSegment {segment item : List Char} {segments : List (List Char)}
    (h : item ∈ pushSegment segment segments) : item = trim segment ∨ item ∈ segments := by
  unfold pushSegment at h
  dsimp only at h
  split at h
  · exact .inr h
  · exact List.mem_cons.mp h

theorem tight_of_mem_pushSegment {segment item : List Char} {segments : List (List Char)}
    (others : ∀ t ∈ segments, Tight t) (h : item ∈ pushSegment segment segments) : Tight item := by
  unfold pushSegment at h
  dsimp only at h
  split at h
  · exact others item h
  · next filled =>
    rcases List.mem_cons.mp h with rfl | h
    · exact Tight.of_trim (mt List.isEmpty_iff.mpr filled) (trim_trim segment)
    · exact others item h

theorem tight_of_segmentsFrom (braced : Bool) (s : Scanner) (current text : List Char) :
    ∀ segment ∈ (segmentsFrom braced s current text).1, Tight segment := by
  induction text generalizing s current with
  | nil => exact fun _ h => absurd h List.not_mem_nil
  | cons c text ih =>
    intro segment h
    unfold segmentsFrom at h
    split at h
    · exact ih _ _ segment h
    · exact ih _ _ segment h
    · exact tight_of_mem_pushSegment (ih _ _) h
    · exact tight_of_mem_pushSegment (ih _ _) h

theorem splitList_tight {text : String} {items : List String} (h : splitList text = .ok items) :
    ∀ item ∈ items, Tight item.toList := by
  unfold splitList segments? at h
  split at h
  · cases h
  · next segments found =>
    dsimp only at found
    split at found
    · cases found
      cases h
      intro item known
      obtain ⟨segment, inside, rfl⟩ := List.mem_map.mp known
      rw [String.toList_ofList]
      exact tight_of_segmentsFrom _ _ _ _ segment inside
    · cases found

theorem mem_of_segmentsFrom {braced : Bool} {s : Scanner} {current text segment : List Char}
    (h : segment ∈ (segmentsFrom braced s current text).1) {c : Char} (hc : c ∈ segment) :
    c ∈ current ∨ c ∈ text := by
  induction text generalizing s current with
  | nil => exact absurd h List.not_mem_nil
  | cons d text ih =>
    have later {current' : List Char} (hcur : ∀ x ∈ current', x ∈ d :: current)
        (h : segment ∈ (segmentsFrom braced (s.step d) current' text).1) :
        c ∈ current ∨ c ∈ d :: text := by
      rcases ih h with hm | hm
      · rcases List.mem_cons.mp (hcur c hm) with rfl | hm
        · exact .inr List.mem_cons_self
        · exact .inl hm
      · exact .inr (List.mem_cons_of_mem _ hm)
    -- A segment that ends here was in the making before it was trimmed.
    have pushed {current' : List Char} (hcur : ∀ x ∈ current', x ∈ d :: current)
        (h : segment ∈ pushSegment current'.reverse (segmentsFrom braced (s.step d) [] text).1) :
        c ∈ current ∨ c ∈ d :: text := by
      rcases mem_pushSegment h with rfl | h
      · rcases List.mem_cons.mp (hcur c (List.mem_reverse.mp (mem_of_mem_trim hc))) with rfl | hm
        · exact .inr List.mem_cons_self
        · exact .inl hm
      · exact later (fun x hx => absurd hx List.not_mem_nil) h
    unfold segmentsFrom at h
    split at h
    · exact later (fun x hx => hx) h
    · exact later (fun x hx => List.mem_cons_of_mem _ hx) h
    · exact pushed (fun x hx => List.mem_cons_of_mem _ hx) h
    · exact pushed (fun x hx => hx) h

theorem colon_of_keyAndValue? {quoted afterBackslash : Bool} {segment key value : List Char}
    (h : keyAndValue? quoted afterBackslash segment = some (key, value)) : ':' ∈ segment := by
  induction segment generalizing quoted afterBackslash key with
  | nil => cases h
  | cons c segment ih =>
    unfold keyAndValue? at h
    split at h
    · next colon => exact colon.1 ▸ List.mem_cons_self
    · obtain ⟨⟨key', value'⟩, found, -⟩ := Option.map_eq_some_iff.mp h
      obtain ⟨rfl, rfl⟩ : value' = value ∧ key = c :: key' := by simp_all
      exact List.mem_cons_of_mem _ (ih found)

theorem splitEntry_spec {text key value : String} {segment : List Char}
    (h : splitEntry text segment = .ok (key, value)) : ':' ∈ segment ∧ trimmed value = value := by
  unfold splitEntry at h
  split at h
  · cases h
  · next found =>
    cases h
    refine ⟨colon_of_keyAndValue? found, ?_⟩
    rw [trimmed, String.toList_ofList, trim_trim]

theorem splitRecord_entry {text : String} {entries : List (String × String)}
    (h : splitRecord text = .ok entries) {entry : String × String} (he : entry ∈ entries) :
    ':' ∈ text.toList ∧ trimmed entry.2 = entry.2 := by
  unfold splitRecord at h
  split at h
  · cases h
  · next segments found =>
    obtain ⟨segment, hs, split⟩ : ∃ segment ∈ segments, splitEntry text segment = .ok entry := by
      obtain ⟨results, ran, each⟩ | ⟨_, _, _, _, -, -, -, ran⟩ :=
        mapM_outcome (splitEntry text) segments
      · obtain rfl : results = entries := Except.ok.inj (ran.symm.trans h)
        exact List.mem_map.mp (each ▸ List.mem_map_of_mem he)
      · rw [ran] at h
        cases h
    obtain ⟨colon, trimmed⟩ := splitEntry_spec split
    refine ⟨?_, trimmed⟩
    unfold segments? at found
    dsimp only at found
    split at found
    · cases found
      exact (mem_of_segmentsFrom hs colon).resolve_left List.not_mem_nil
    · cases found

theorem isMissing_of_mem {c : Char} (visible : isBlank c = false)
    (words : c ∉ "null".toList ∧ c ∉ missingValue.toList) {text : String} (h : c ∈ text.toList) :
    isMissing (some text) = false := by
  have inside : c ∈ (trimmed text).toList := by
    rw [trimmed, String.toList_ofList]
    exact mem_trim visible h
  have other {word : String} (hw : c ∉ word.toList) : trimmed text ≠ word := by
    rintro rfl
    exact hw inside
  have blank : trimmed text ≠ "" := other List.not_mem_nil
  have null : trimmed text ≠ "null" := other words.1
  have missing : trimmed text ≠ missingValue := other words.2
  simp [isMissing, blank, null, missing]

theorem isMissing_of_colon {text : String} (h : ':' ∈ text.toList) :
    isMissing (some text) = false :=
  isMissing_of_mem (by decide) (by decide) h

end ScriptBridge.Group
