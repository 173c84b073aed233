import ScriptBridge.Chevron
import ScriptBridge.Proofs.Text.Occurrences
import ScriptBridge.Proofs.Text.Trim
/-!
Which texts are chevrons.

A chevron is written between guillemets: its kind, which is one word, a space, and its code of four
characters. The kind ends at the first space, so that every other space belongs to the code; a
guillemet may stand in either. Reading accepts exactly the texts that are written this way, with any
white space around them (`parse_eq_ok_iff`), and what it gives is the chevron that is written there.
Building a chevron from two parts succeeds exactly if the text made of them is read as these two
(`make_eq_ok_iff`).
-/
namespace ScriptBridge.Chevron

open Text

/-- The text of a kind and a code. -/
def written (kind code : List Char) : List Char := ['«'] ++ (kind ++ ' ' :: code) ++ ['»']

/-- A kind and a code that make a chevron. -/
structure Fits (kind code : List Char) : Prop where
  nonempty : kind ≠ []
  oneWord : ' ' ∉ kind
  four : code.length = 4

instance (kind code : List Char) : Decidable (Fits kind code) :=
  decidable_of_iff (kind ≠ [] ∧ ' ' ∉ kind ∧ code.length = 4)
    ⟨fun h => ⟨h.1, h.2.1, h.2.2⟩, fun h => ⟨h.nonempty, h.oneWord, h.four⟩⟩

theorem toList_render (c : Chevron) : c.render.toList = written c.kind.toList c.code.toList := by
  simp [render, written, toString]

theorem written_tight (kind code : List Char) : Tight (written kind code) :=
  Tight.of_ends (by decide) (by decide) (kind ++ ' ' :: code)

/-! ## Reading -/

theorem ofInner_eq_ok_iff {inner : List Char} {c : Chevron} :
    ofInner inner = .ok c ↔
      inner = c.kind.toList ++ ' ' :: c.code.toList ∧ Fits c.kind.toList c.code.toList := by
  unfold ofInner
  constructor
  · intro read
    split at read
    · cases read
    · next kind code divided =>
      obtain ⟨rfl, oneWord⟩ := splitFirst?_iff.mp divided
      split at read
      · cases read
      · next four =>
        split at read
        · cases read
        · next nonempty =>
          cases read
          rw [String.toList_ofList, String.toList_ofList]
          exact ⟨rfl, by simpa using nonempty, oneWord, not_not.mp four⟩
  · rintro ⟨rfl, fits⟩
    have kind : c.kind.toList.isEmpty = false := by simpa using fits.nonempty
    rw [splitFirst?_iff.mpr ⟨rfl, fits.oneWord⟩]
    simp only [fits.four, ne_eq, not_true_eq_false, kind, Bool.false_eq_true, if_false,
      String.ofList_toList]

theorem parse_eq_ok_iff_inner {text : String} {c : Chevron} :
    parse text = .ok c ↔
      ∃ inner, trim text.toList = ['«'] ++ inner ++ ['»'] ∧ ofInner inner = .ok c := by
  simp only [← between?_iff, between?, Option.bind_eq_some_iff]
  unfold parse
  cases ['«'].isPrefixOf? (trim text.toList) with
  | none => simp
  | some opened =>
    simp only [Option.some.injEq, exists_eq_left']
    cases ['»'].isSuffixOf? opened with
    | none => simp
    | some inner => simp only [Option.some.injEq, exists_eq_left']

/-- A chevron is read from the texts that it is written as, if it can be written. -/
theorem parse_eq_ok_iff {text : String} {c : Chevron} :
    parse text = .ok c ↔
      trim text.toList = written c.kind.toList c.code.toList ∧
        Fits c.kind.toList c.code.toList := by
  rw [parse_eq_ok_iff_inner]
  simp only [ofInner_eq_ok_iff, written]
  constructor
  · rintro ⟨inner, whole, rfl, fits⟩
    exact ⟨whole, fits⟩
  · rintro ⟨whole, fits⟩
    exact ⟨_, whole, rfl, fits⟩

theorem parse_render_iff {c : Chevron} :
    parse c.render = .ok c ↔ Fits c.kind.toList c.code.toList := by
  rw [parse_eq_ok_iff, toList_render, (written_tight _ _).trim_eq]
  exact and_iff_right rfl

/-! ## Building -/

theorem make_eq_ok_iff {kind code : String} {c : Chevron} :
    make kind code = .ok c ↔ c = ⟨kind, code⟩ ∧ Fits kind.toList code.toList := by
  unfold make
  split
  · next h =>
    apply iff_of_false nofun
    rintro ⟨-, fits⟩
    rcases h with empty | spaced
    · exact fits.nonempty (by simpa using empty)
    · exact fits.oneWord spaced
  · next h =>
    rw [not_or] at h
    split
    · next long =>
      apply iff_of_false nofun
      rintro ⟨-, fits⟩
      exact long fits.four
    · next four =>
      have fits : Fits kind.toList code.toList :=
        ⟨by simpa using h.1, h.2, not_not.mp four⟩
      rw [Except.ok.injEq, eq_comm, and_iff_left fits]

/-- A text is read exactly if it is, without the white space around it, a kind and a code between
guillemets; the chevron that is read shows as that text and is read from it again; and two parts
are built into a chevron exactly if their text is read as these two. -/
theorem read_exactly (text kind code : String) :
    ((∃ c, parse text = .ok c) ↔
      ∃ kind code, trim text.toList = written kind code ∧ Fits kind code) ∧
    (∀ c, parse text = .ok c → c.render = trimmed text ∧ parse c.render = .ok c) ∧
    ((∃ c, make kind code = .ok c) ↔
      parse (render ⟨kind, code⟩) = .ok ⟨kind, code⟩) := by
  refine ⟨⟨?_, ?_⟩, fun c read => ?_, ?_⟩
  · rintro ⟨c, read⟩
    exact ⟨_, _, parse_eq_ok_iff.mp read⟩
  · rintro ⟨kind, code, whole, fits⟩
    refine ⟨⟨String.ofList kind, String.ofList code⟩, parse_eq_ok_iff.mpr ?_⟩
    simpa only [String.toList_ofList] using And.intro whole fits
  · obtain ⟨whole, fits⟩ := parse_eq_ok_iff.mp read
    refine ⟨?_, parse_render_iff.mpr fits⟩
    rw [trimmed, whole, ← toList_render, String.ofList_toList]
  · rw [parse_render_iff]
    simp only [make_eq_ok_iff, exists_eq_left]

/-- A code with a guillemet and spaces in it comes back, and a kind of two words is not one, though
its text is read as another kind and code. -/
theorem read_exactly_spaced :
    parse "\u00a0«class « b »\n" = .ok ⟨"class", "« b "⟩ ∧
      (render ⟨"class", "« b "⟩ = trimmed "\u00a0«class « b »\n" ∧
        parse (render ⟨"class", "« b "⟩) = .ok ⟨"class", "« b "⟩) ∧
      parse (render ⟨"a bc", "d"⟩) = .ok ⟨"a", "bc d"⟩ ∧ ¬∃ c, make "a bc" "d" = .ok c := by
  have read : parse "\u00a0«class « b »\n" = .ok ⟨"class", "« b "⟩ := by decide
  have other : parse (render ⟨"a bc", "d"⟩) = .ok ⟨"a", "bc d"⟩ := by decide
  refine ⟨read, (read_exactly _ "" "").2.1 _ read, other, fun built => ?_⟩
  rw [(read_exactly "" "a bc" "d").2.2, other] at built
  exact absurd built (by decide)

end ScriptBridge.Chevron
