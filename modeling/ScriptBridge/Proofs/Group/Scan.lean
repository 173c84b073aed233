import ScriptBridge.Group
import ScriptBridge.Proofs.Text.Trim
/-!
What the scanner of groups does with a stretch of braced text.

A stretch in which no character ends a segment (`Uncut`) adds to the current segment what the
scanner keeps of it (`kept`) and leads to the state after it (`segmentsFrom_append`). A stretch is
`Held` if all of it is kept, and the scanner `Stays` if it is back at the same depth outside of
string literals as well. A `Segment` is a text in which the scanner stays from wherever an item may
start; an `Item` is one even after a backslash.

A row is any number of segments with commas between them and white space around each. Between braces
the segments of a row come out as they went in (`segments?_row`), and the whole is an item again
(`Item.row`). A list as it is written is the row whose items follow each other after a space, so
that the same holds of it (`segments?_listText`, `Item.listText`).
-/
namespace ScriptBridge.Group

open Text

/-- The state after a text. -/
def Scanner.run (s : Scanner) (text : List Char) : Scanner := text.foldl Scanner.step s

/-- What the scanner keeps of a text for the current segment. -/
def kept (s : Scanner) : List Char → List Char
  | [] => []
  | c :: rest =>
    if role true (s.step c) c false = .belongs then c :: kept (s.step c) rest
    else kept (s.step c) rest

/-- Whether no character of a text ends a segment. -/
def Uncut (s : Scanner) : List Char → Prop
  | [] => True
  | c :: rest => role true (s.step c) c false ≠ .ends ∧ Uncut (s.step c) rest

/-- A text that the scanner keeps as it is. -/
structure Held (s : Scanner) (text : List Char) : Prop where
  uncut : Uncut s text
  kept : kept s text = text

/-! ## Stretches of text -/

@[simp] theorem run_nil (s : Scanner) : s.run [] = s := rfl

@[simp] theorem run_cons (s : Scanner) (c : Char) (rest : List Char) :
    s.run (c :: rest) = (s.step c).run rest := rfl

theorem run_append (s : Scanner) (a b : List Char) : s.run (a ++ b) = (s.run a).run b :=
  List.foldl_append

theorem segmentsFrom_final (braced : Bool) (s : Scanner) (current text : List Char) :
    (segmentsFrom braced s current text).2 = s.run text := by
  induction text generalizing s current with
  | nil => rfl
  | cons c text ih =>
    rw [segmentsFrom, run_cons]
    cases role braced (s.step c) c text.isEmpty <;> exact ih _ _

theorem Scanner.isBalanced_iff {s : Scanner} :
    s.isBalanced = true ↔ s.depth = 0 ∧ s.quoted = false := by
  simp [Scanner.isBalanced]

theorem segments?_eq (text : List Char) :
    segments? text = if (Scanner.run {} text).isBalanced then
      some (segmentsFrom (text.head? == some '\x7b') {} [] text).1 else none := by
  simp only [segments?, segmentsFrom_final]

theorem splitList_eq_ok_iff {text : String} {items : List String} : splitList text = .ok items ↔
    ∃ segments, segments? text.toList = some segments ∧ segments.map String.ofList = items := by
  unfold splitList
  cases segments? text.toList with
  | none => simp
  | some segments => simp

theorem exists_splitList_iff {text : String} :
    (∃ items, splitList text = .ok items) ↔ (Scanner.run {} text.toList).isBalanced = true := by
  simp only [splitList_eq_ok_iff, segments?_eq]
  cases (Scanner.run {} text.toList).isBalanced <;> simp

theorem pushSegment_append (segment : List Char) (before after : List (List Char)) :
    pushSegment segment (before ++ after) = pushSegment segment before ++ after := by
  simp only [pushSegment]
  split <;> rfl

/-- Only the last character of a text both belongs to a segment and ends it. -/
theorem role_ne_endsWithin (braced : Bool) (s : Scanner) (c : Char) :
    role braced s c false ≠ .endsWithin := by
  unfold role
  rw [Bool.and_false, if_neg Bool.false_ne_true]
  split
  · simp
  · split
    · simp
    · split <;> simp

/-- Of a text that goes on, some segments are complete, and the rest goes on from there. -/
theorem exists_segmentsFrom_append (braced : Bool) (s : Scanner) (current text : List Char) :
    ∃ complete current', ∀ rest, rest ≠ [] → (segmentsFrom braced s current (text ++ rest)).1 =
      complete ++ (segmentsFrom braced (s.run text) current' rest).1 := by
  induction text generalizing s current with
  | nil => exact ⟨[], current, fun _ _ => rfl⟩
  | cons c text ih =>
    have goesOn {rest : List Char} (hr : rest ≠ []) : (text ++ rest).isEmpty = false := by
      cases text with
      | nil => simpa using hr
      | cons d text => rfl
    cases hr : role braced (s.step c) c false with
    | belongs =>
      obtain ⟨complete, current', h⟩ := ih (s.step c) (c :: current)
      refine ⟨complete, current', fun rest hne => ?_⟩
      rw [List.cons_append, segmentsFrom, goesOn hne, hr]
      exact h rest hne
    | passed =>
      obtain ⟨complete, current', h⟩ := ih (s.step c) current
      refine ⟨complete, current', fun rest hne => ?_⟩
      rw [List.cons_append, segmentsFrom, goesOn hne, hr]
      exact h rest hne
    | ends =>
      obtain ⟨complete, current', h⟩ := ih (s.step c) []
      refine ⟨pushSegment current.reverse complete, current', fun rest hne => ?_⟩
      rw [List.cons_append, segmentsFrom, goesOn hne, hr, ← pushSegment_append]
      exact congrArg (pushSegment current.reverse) (h rest hne)
    | endsWithin => exact absurd hr (role_ne_endsWithin braced _ c)

theorem kept_append (s : Scanner) (a b : List Char) :
    kept s (a ++ b) = kept s a ++ kept (s.run a) b := by
  induction a generalizing s with
  | nil => rfl
  | cons c a ih =>
    rw [List.cons_append, kept, kept, ih]
    split <;> rfl

theorem uncut_append {s : Scanner} {a b : List Char} :
    Uncut s (a ++ b) ↔ Uncut s a ∧ Uncut (s.run a) b := by
  induction a generalizing s with
  | nil => exact ⟨fun h => ⟨trivial, h⟩, fun h => h.2⟩
  | cons c a ih =>
    rw [List.cons_append, Uncut, Uncut, ih, and_assoc]
    rfl

theorem kept_length_le (s : Scanner) (text : List Char) : (kept s text).length ≤ text.length := by
  induction text generalizing s with
  | nil => exact Nat.le_refl 0
  | cons c text ih =>
    have := ih (s.step c)
    rw [kept]
    split <;> simp only [List.length_cons] <;> omega

theorem Held.append {s : Scanner} {a b : List Char} (ha : Held s a) (hb : Held (s.run a) b) :
    Held s (a ++ b) :=
  ⟨uncut_append.mpr ⟨ha.uncut, hb.uncut⟩, by rw [kept_append, ha.kept, hb.kept]⟩

theorem Held.nil (s : Scanner) : Held s [] := ⟨trivial, rfl⟩

theorem Held.of_role {s : Scanner} {c : Char} (h : role true (s.step c) c false = .belongs) :
    Held s [c] :=
  ⟨⟨by rw [h]; simp, trivial⟩, by simp [Group.kept, h]⟩

/-- The role of a character in braced text, which does not depend on whether it is the last. -/
theorem role_braced (s : Scanner) (c : Char) (isLast : Bool) :
    role true s c isLast =
      if s.quoted then .belongs
      else if (s.depth = 1 ∧ c = ',') ∨ (s.depth = 0 ∧ c = '\x7d') then .ends
      else if (s.depth = 1 ∧ c ≠ '\x7b') ∨ 1 < s.depth then .belongs
      else .passed := by
  simp [role]

/-- A stretch in which nothing ends a segment adds what is kept of it. -/
theorem segmentsFrom_append {s : Scanner} {a : List Char} (h : Uncut s a)
    (current rest : List Char) :
    segmentsFrom true s current (a ++ rest) =
      segmentsFrom true (s.run a) ((kept s a).reverse ++ current) rest := by
  induction a generalizing s current with
  | nil => rfl
  | cons c a ih =>
    obtain ⟨hc, h⟩ := h
    -- In braced text it does not matter whether the character is the last one.
    have e : role true (s.step c) c (a ++ rest).isEmpty = role true (s.step c) c false := by
      rw [role_braced, role_braced]
    rw [List.cons_append, segmentsFrom, e, kept]
    cases hr : role true (s.step c) c false with
    | belongs =>
      have h := ih h (c :: current)
      simpa using h
    | passed =>
      rw [if_neg (by simp)]
      exact ih h current
    | ends => exact absurd hr hc
    | endsWithin => exact absurd hr (role_ne_endsWithin true _ c)

theorem segmentsFrom_uncut {s : Scanner} {text : List Char} (h : Uncut s text)
    (current : List Char) : (segmentsFrom true s current text).1 = [] := by
  have e := segmentsFrom_append h current []
  rw [List.append_nil] at e
  rw [e, segmentsFrom]

/-! ## Single characters -/

/-- Whether a character is nothing special to the scanner. -/
def isInert (c : Char) : Bool :=
  c != '"' && c != '\\' && c != ',' && c != '\x7b' && c != '\x7d'

/-- Text that is nothing special to the scanner. -/
def Inert (a : List Char) : Prop := ∀ c ∈ a, isInert c = true

instance (a : List Char) : Decidable (Inert a) :=
  decidable_of_iff (a.all isInert = true) List.all_eq_true

theorem step_inert {c : Char} (hc : isInert c = true) (s : Scanner) :
    s.step c = { s with afterBackslash := false } := by
  simp only [isInert, Bool.and_eq_true, bne_iff_ne, ne_eq] at hc
  simp [Scanner.step, hc]

theorem role_quoted {s : Scanner} (h : s.quoted = true) (c : Char) :
    role true s c false = .belongs := by
  rw [role_braced, if_pos h]

theorem role_other {c : Char} (h₁ : c ≠ ',') (h₂ : c ≠ '\x7b') (h₃ : c ≠ '\x7d') (s : Scanner)
    (isLast : Bool) :
    role true s c isLast = if s.quoted = true ∨ 1 ≤ s.depth then .belongs else .passed := by
  rw [role_braced]
  cases hq : s.quoted with
  | true => simp
  | false =>
    simp only [h₁, h₂, h₃, Bool.false_eq_true, if_false, and_false, or_false, false_or, ne_eq,
      not_false_eq_true, and_true]
    by_cases h : 1 ≤ s.depth
    · rw [if_pos (by omega), if_pos h]
    · rw [if_neg (by omega), if_neg h]

theorem role_other_ne_ends {c : Char} (h₁ : c ≠ ',') (h₂ : c ≠ '\x7b') (h₃ : c ≠ '\x7d')
    (s : Scanner) : role true s c false ≠ .ends := by
  rw [role_other h₁ h₂ h₃]
  split <;> simp

theorem role_inert {c : Char} (hc : isInert c = true) (s : Scanner) (isLast : Bool) :
    role true s c isLast = if s.quoted = true ∨ 1 ≤ s.depth then .belongs else .passed := by
  simp only [isInert, Bool.and_eq_true, bne_iff_ne, ne_eq] at hc
  exact role_other hc.1.1.2 hc.1.2 hc.2 s isLast

theorem role_comma {s : Scanner} (hq : s.quoted = false) (isLast : Bool) :
    role true s ',' isLast =
      if s.depth = 1 then .ends else if 1 < s.depth then .belongs else .passed := by
  rw [role_braced]
  by_cases h : s.depth = 1 <;> simp [hq, h]

/-! ## Inert text -/

section
variable {a : List Char} (ha : Inert a)
include ha

theorem run_inert (depth : Int) (quoted : Bool) :
    Scanner.run ⟨depth, quoted, false⟩ a = ⟨depth, quoted, false⟩ := by
  induction a with
  | nil => rfl
  | cons c a ih =>
    rw [run_cons, step_inert (ha c List.mem_cons_self)]
    exact ih fun x hx => ha x (List.mem_cons_of_mem c hx)

theorem uncut_inert (s : Scanner) : Uncut s a := by
  induction a generalizing s with
  | nil => trivial
  | cons c a ih =>
    refine ⟨?_, ih (fun x hx => ha x (List.mem_cons_of_mem c hx)) _⟩
    rw [role_inert (ha c List.mem_cons_self)]
    split <;> simp

theorem kept_inert (s : Scanner) : kept s a = if s.quoted ∨ 1 ≤ s.depth then a else [] := by
  induction a generalizing s with
  | nil => simp [kept]
  | cons c a ih =>
    have hc := ha c List.mem_cons_self
    rw [kept, ih fun x hx => ha x (List.mem_cons_of_mem c hx)]
    rw [role_inert hc, step_inert hc]
    by_cases h : s.quoted = true ∨ 1 ≤ s.depth <;> simp [h]

theorem held_inert {s : Scanner} (h : s.quoted = true ∨ 1 ≤ s.depth) : Held s a :=
  ⟨uncut_inert ha s, by rw [kept_inert ha, if_pos h]⟩

end

/-! ## Items -/

/-- Whether an item may stand at a place: inside of the group and outside of string literals. -/
structure Scanner.AtItem (s : Scanner) : Prop where
  depth : 1 ≤ s.depth
  unquoted : s.quoted = false

/-- A text that the scanner holds wherever an item may stand, and that leaves depth and quotes as
they were. -/
structure Item (t : List Char) : Prop where
  tight : Tight t
  held : ∀ s : Scanner, s.AtItem → Held s t
  depth : ∀ s : Scanner, s.AtItem → (s.run t).depth = s.depth
  unquoted : ∀ s : Scanner, s.AtItem → (s.run t).quoted = false

/-- A stretch that the scanner keeps and that leaves depth and quotes as they were. -/
structure Stays (s : Scanner) (a : List Char) : Prop where
  held : Held s a
  depth : (s.run a).depth = s.depth
  unquoted : (s.run a).quoted = false

/-- A text in which the scanner stays from wherever an item may start. No item starts after a
backslash, so one may start with a quote. -/
structure Segment (t : List Char) : Prop where
  tight : Tight t
  stays : ∀ s : Scanner, s.AtItem → s.afterBackslash = false → Stays s t

namespace Stays

variable {s : Scanner} {a b : List Char}

theorem nil (hs : s.AtItem) : Stays s [] := ⟨Held.nil s, rfl, hs.unquoted⟩

theorem append (ha : Stays s a) (hb : Stays (s.run a) b) : Stays s (a ++ b) :=
  ⟨ha.held.append hb.held, by rw [run_append, hb.depth, ha.depth],
    by rw [run_append, hb.unquoted]⟩

theorem atItem (ha : Stays s a) (hs : s.AtItem) : (s.run a).AtItem :=
  ⟨by rw [ha.depth]; exact hs.depth, ha.unquoted⟩

theorem of_run {afterBackslash : Bool} (held : Held s a)
    (run : s.run a = ⟨s.depth, false, afterBackslash⟩) : Stays s a :=
  ⟨held, by rw [run], by rw [run]⟩

/-- A character that neither quotes nor groups nor divides. A backslash has no effect by itself. -/
theorem of_plain {c : Char} (quote : c ≠ '"') (comma : c ≠ ',') (opening : c ≠ '\x7b')
    (closing : c ≠ '\x7d') (hs : s.AtItem) : Stays s [c] := by
  have step : s.step c = ⟨s.depth, false, c = '\\'⟩ := by
    simp [Scanner.step, quote, opening, closing, hs.unquoted]
  refine .of_run (.of_role ?_) step
  rw [role_other comma opening closing, step, if_pos (Or.inr hs.depth)]

theorem of_inert (ha : Inert a) (hs : s.AtItem) : Stays s a := by
  cases a with
  | nil => exact .nil hs
  | cons c a =>
    have run : s.run (c :: a) = ⟨s.depth, false, false⟩ := by
      rw [run_cons, step_inert (ha c List.mem_cons_self), hs.unquoted,
        run_inert fun x hx => ha x (List.mem_cons_of_mem c hx)]
    exact .of_run (held_inert ha (Or.inr hs.depth)) run

end Stays

theorem Item.stays {t : List Char} (ht : Item t) {s : Scanner} (hs : s.AtItem) : Stays s t :=
  ⟨ht.held s hs, ht.depth s hs, ht.unquoted s hs⟩

theorem Item.of_stays {t : List Char} (tight : Tight t)
    (h : ∀ s : Scanner, s.AtItem → Stays s t) : Item t :=
  ⟨tight, fun s hs => (h s hs).held, fun s hs => (h s hs).depth, fun s hs => (h s hs).unquoted⟩

theorem Item.segment {t : List Char} (ht : Item t) : Segment t :=
  ⟨ht.tight, fun _ hs _ => ht.stays hs⟩

theorem Item.of_inert {t : List Char} (ht : Tight t) (hi : Inert t) : Item t :=
  .of_stays ht fun _ hs => .of_inert hi hs

/-! ## Rows of segments -/

/-- Something with white space around it. -/
structure Padded (α : Type) where
  before : List Char
  item : α
  after : List Char

/-- Whether what stands around something is white space. -/
structure Padded.IsBlank {α : Type} (p : Padded α) : Prop where
  before : AllBlank p.before
  after : AllBlank p.after

def Padded.text (p : Padded (List Char)) : List Char := p.before ++ p.item ++ p.after

/-- A row of items: commas between them and white space around each. -/
def rowText (row : List (Padded (List Char))) : List Char := [','].intercalate (row.map Padded.text)

/-- A row of segments. -/
def IsRow (row : List (Padded (List Char))) : Prop := ∀ p ∈ row, p.IsBlank ∧ Segment p.item

theorem rowText_cons_cons (p q : Padded (List Char)) (row : List (Padded (List Char))) :
    rowText (p :: q :: row) = p.text ++ ',' :: rowText (q :: row) := by
  simp [rowText, List.intercalate_cons_cons]

theorem rowText_singleton (p : Padded (List Char)) : rowText [p] = p.text := by
  simp [rowText]

theorem inert_of_allBlank {w : List Char} (hw : AllBlank w) : Inert w := by
  intro c hc
  have other (x : Char) (hx : isBlank x = false) : c ≠ x := by
    rintro rfl
    rw [hw c hc] at hx
    exact absurd hx (by decide)
  simp [isInert, other '"' (by decide), other '\\' (by decide), other ',' (by decide),
    other '\x7b' (by decide), other '\x7d' (by decide)]

section
variable {s : Scanner}

theorem run_blank {w : List Char} (hw : AllBlank w) (fresh : s.afterBackslash = false) :
    s.run w = s := by
  obtain ⟨depth, quoted, _⟩ := s
  cases fresh
  exact run_inert (inert_of_allBlank hw) depth quoted

theorem stays_padded {p : Padded (List Char)} (hp : p.IsBlank) (hi : Segment p.item)
    (hs : s.AtItem) (fresh : s.afterBackslash = false) : Stays s p.text := by
  have before := Stays.of_inert (inert_of_allBlank hp.before) hs
  have item : Stays (s.run p.before) p.item := by
    rw [run_blank hp.before fresh]
    exact hi.stays s hs fresh
  have both := before.append item
  exact both.append (.of_inert (inert_of_allBlank hp.after) (both.atItem hs))

/-- Where a list inside of a list is being read. -/
structure Scanner.Deep (s : Scanner) : Prop where
  depth : 2 ≤ s.depth
  unquoted : s.quoted = false

theorem Scanner.Deep.atItem (hs : s.Deep) : s.AtItem :=
  ⟨by have := hs.depth; omega, hs.unquoted⟩

theorem stays_comma (hs : s.Deep) : Stays s [','] := by
  have hd := hs.depth
  have step : s.step ',' = ⟨s.depth, false, false⟩ := by simp [Scanner.step, hs.unquoted]
  refine .of_run (.of_role ?_) step
  rw [step, role_comma rfl, if_neg (by simp only; omega), if_pos (by simp only; omega)]

/-- Inside of a row that is itself an item, items and commas are held alike. -/
theorem stays_row {row : List (Padded (List Char))} (h : IsRow row) (hs : s.Deep)
    (fresh : s.afterBackslash = false) : Stays s (rowText row) := by
  induction row generalizing s with
  | nil => exact .nil hs.atItem
  | cons p row ih =>
    obtain ⟨⟨blank, segment⟩, h⟩ := List.forall_mem_cons.mp h
    have first := stays_padded blank segment hs.atItem fresh
    cases row with
    | nil =>
      rw [rowText_singleton]
      exact first
    | cons q row =>
      have there : (s.run p.text).Deep := ⟨by rw [first.depth]; exact hs.depth, first.unquoted⟩
      -- The comma stands deeper than the items of the outer list, and ends nothing.
      have comma := stays_comma there
      have next : ((s.run p.text).run [',']).Deep :=
        ⟨by rw [comma.depth]; exact there.depth, comma.unquoted⟩
      rw [rowText_cons_cons, List.append_cons]
      apply (first.append comma).append
      rw [run_append]
      exact ih h next rfl

/-- Braces around a stretch in which the scanner stays are held where an item may stand. -/
theorem stays_braces {body : List Char} (hs : s.AtItem)
    (h : ∀ inner : Scanner, inner.Deep → inner.afterBackslash = false → Stays inner body) :
    Stays s ('\x7b' :: body ++ ['\x7d']) := by
  have hd := hs.depth
  have hq := hs.unquoted
  have opening : s.step '\x7b' = ⟨s.depth + 1, false, false⟩ := by simp [Scanner.step, hq]
  have inner : Stays ⟨s.depth + 1, false, false⟩ body := h _ ⟨by simp only; omega, rfl⟩ rfl
  have closing : (Scanner.run ⟨s.depth + 1, false, false⟩ body).step '\x7d' =
      ⟨s.depth, false, false⟩ := by
    simp [Scanner.step, inner.depth, inner.unquoted]
  have ho : Held s ['\x7b'] := by
    apply Held.of_role
    rw [role_braced, opening]
    simp only [Bool.false_eq_true, if_false]
    rw [if_neg (by simp), if_pos (by omega)]
  have hc : Held (Scanner.run ⟨s.depth + 1, false, false⟩ body) ['\x7d'] := by
    apply Held.of_role
    rw [closing, role_braced]
    simp only [Bool.false_eq_true, if_false]
    rw [if_neg (by simp; omega), if_pos (by simp; omega)]
  have run : s.run ('\x7b' :: body ++ ['\x7d']) = ⟨s.depth, false, false⟩ := by
    rw [List.cons_append, run_cons, run_append, opening, run_cons, run_nil, closing]
  rw [← opening] at inner hc
  exact .of_run (ho.append (inner.held.append hc)) run

end

theorem Item.row {row : List (Padded (List Char))} (h : IsRow row) :
    Item ('\x7b' :: rowText row ++ ['\x7d']) :=
  .of_stays (Tight.of_ends (by decide) (by decide) _) fun _ hs =>
    stays_braces hs fun _ deep fresh => stays_row h deep fresh

/-! ## Taking a row apart -/

theorem segmentsFrom_divide {s : Scanner} (hd : s.depth = 1) (hq : s.quoted = false)
    (current rest : List Char) :
    segmentsFrom true s current (',' :: rest) =
      (pushSegment current.reverse (segmentsFrom true ⟨1, false, false⟩ [] rest).1,
        (segmentsFrom true ⟨1, false, false⟩ [] rest).2) := by
  have e : s.step ',' = ⟨1, false, false⟩ := by simp [Scanner.step, hd, hq]
  have hr (l : Bool) : role true (s.step ',') ',' l = .ends := by
    rw [e, role_comma rfl, if_pos rfl]
  rw [segmentsFrom, hr, e]

theorem segmentsFrom_close {s : Scanner} (hd : s.depth = 1) (hq : s.quoted = false)
    (current : List Char) :
    segmentsFrom true s current ['\x7d'] =
      (pushSegment current.reverse [], ⟨0, false, false⟩) := by
  have e : s.step '\x7d' = ⟨0, false, false⟩ := by simp [Scanner.step, hd, hq]
  have hr (l : Bool) : role true (s.step '\x7d') '\x7d' l = .ends := by
    rw [e, role_braced]
    simp
  rw [segmentsFrom, hr, e]
  rfl

theorem segments?_open (rest : List Char) :
    segments? ('\x7b' :: rest) =
      if (segmentsFrom true ⟨1, false, false⟩ [] rest).2.isBalanced then
        some (segmentsFrom true ⟨1, false, false⟩ [] rest).1
      else none := by
  have hr (l : Bool) : role true (Scanner.step {} '\x7b') '\x7b' l = .passed := by
    rw [role_braced]
    decide
  have hstep : Scanner.step {} '\x7b' = ⟨1, false, false⟩ := by decide
  rw [segments?, List.head?_cons, beq_self_eq_true, segmentsFrom, hr, hstep]

theorem pushSegment_padded {before after t : List Char} (hb : AllBlank before)
    (ha : AllBlank after) (ht : Tight t) (segments : List (List Char)) :
    pushSegment (before ++ t ++ after) segments = t :: segments := by
  have hne : t.isEmpty = false := by
    obtain ⟨c, r, rfl, -⟩ := ht.first
    rfl
  have e : trim (before ++ t ++ after) = t := (trim_surrounded hb ha t).trans ht.trim_eq
  simp only [pushSegment, e, hne, Bool.false_eq_true, if_false]

theorem pushSegment_tight {blank t : List Char} (hb : AllBlank blank) (ht : Tight t)
    (segments : List (List Char)) : pushSegment (blank ++ t) segments = t :: segments := by
  have none : AllBlank [] := by decide
  have h := pushSegment_padded hb none ht segments
  rwa [List.append_nil] at h

theorem segmentsFrom_row {row : List (Padded (List Char))} (h : IsRow row) (hne : row ≠ []) :
    segmentsFrom true ⟨1, false, false⟩ [] (rowText row ++ ['\x7d']) =
      (row.map Padded.item, ⟨0, false, false⟩) := by
  induction row with
  | nil => exact absurd rfl hne
  | cons p row ih =>
    obtain ⟨⟨blank, segment⟩, h⟩ := List.forall_mem_cons.mp h
    have first := stays_padded (s := ⟨1, false, false⟩) blank segment ⟨Int.le_refl 1, rfl⟩ rfl
    have current : ((kept ⟨1, false, false⟩ p.text).reverse ++ []).reverse =
        p.before ++ p.item ++ p.after := by
      rw [first.held.kept, List.append_nil, List.reverse_reverse, Padded.text]
    cases row with
    | nil =>
      rw [rowText_singleton, segmentsFrom_append first.held.uncut,
        segmentsFrom_close first.depth first.unquoted, current,
        pushSegment_padded blank.before blank.after segment.tight]
      rfl
    | cons q row =>
      rw [rowText_cons_cons, List.append_assoc, segmentsFrom_append first.held.uncut,
        List.cons_append, segmentsFrom_divide first.depth first.unquoted, ih h (by simp), current,
        pushSegment_padded blank.before blank.after segment.tight]
      rfl

/-- The segments of a row between braces come out as they went in. -/
theorem segments?_row {row : List (Padded (List Char))} (h : IsRow row) :
    segments? ('\x7b' :: rowText row ++ ['\x7d']) = some (row.map Padded.item) := by
  rw [List.cons_append, segments?_open]
  by_cases hne : row = []
  · subst hne
    decide
  · rw [segmentsFrom_row h hne, if_pos (show Scanner.isBalanced ⟨0, false, false⟩ = true from rfl)]

/-! ## Lists as they are written -/

/-- Items with a comma and a space between neighbours. -/
def joined (items : List (List Char)) : List Char := [',', ' '].intercalate items

/-- Items between braces. -/
def listText (items : List (List Char)) : List Char := '\x7b' :: joined items ++ ['\x7d']

theorem joined_cons_cons (t u : List Char) (ts : List (List Char)) :
    joined (t :: u :: ts) = t ++ ([',', ' '] ++ joined (u :: ts)) := by
  simp [joined, List.intercalate_cons_cons]

/-- An item after a space. -/
def afterSpace (t : List Char) : Padded (List Char) := ⟨[' '], t, []⟩

/-- The row of items in which each but the first follows a space. -/
def spaced : List (List Char) → List (Padded (List Char))
  | [] => []
  | t :: ts => ⟨[], t, []⟩ :: ts.map afterSpace

theorem rowText_afterSpace (t : List Char) (ts : List (List Char)) :
    rowText (afterSpace t :: ts.map afterSpace) = ' ' :: joined (t :: ts) := by
  induction ts generalizing t with
  | nil => simp [rowText, joined, Padded.text, afterSpace]
  | cons u ts ih =>
    rw [List.map_cons, rowText_cons_cons, ih, joined_cons_cons]
    simp [Padded.text, afterSpace]

theorem rowText_spaced (items : List (List Char)) : rowText (spaced items) = joined items := by
  cases items with
  | nil => rfl
  | cons t items =>
    cases items with
    | nil => simp [spaced, rowText, joined, Padded.text]
    | cons u items =>
      rw [spaced, List.map_cons, rowText_cons_cons, rowText_afterSpace, joined_cons_cons]
      simp [Padded.text]

theorem map_item_spaced (items : List (List Char)) : (spaced items).map Padded.item = items := by
  cases items with
  | nil => rfl
  | cons t items => simp [spaced, afterSpace, Function.comp_def]

theorem isRow_spaced {items : List (List Char)} (h : ∀ t ∈ items, Item t) :
    IsRow (spaced items) := by
  have none : AllBlank [] := by decide
  have space : AllBlank [' '] := by decide
  cases items with
  | nil => exact fun _ hp => absurd hp List.not_mem_nil
  | cons t items =>
    rw [List.forall_mem_cons] at h
    refine List.forall_mem_cons.mpr ⟨⟨⟨none, none⟩, h.1.segment⟩, ?_⟩
    exact List.forall_mem_map.mpr fun u hu => ⟨⟨space, none⟩, (h.2 u hu).segment⟩

theorem Item.listText {items : List (List Char)} (h : ∀ t ∈ items, Item t) :
    Item (listText items) := by
  rw [Group.listText, ← rowText_spaced]
  exact .row (isRow_spaced h)

theorem run_comma (s : Scanner) : s.run [',', ' '] = { s with afterBackslash := false } := by
  simp [Scanner.step]

theorem segmentsFrom_comma {s : Scanner} (hd : s.depth = 1) (hq : s.quoted = false)
    (current rest : List Char) :
    segmentsFrom true s current (',' :: ' ' :: rest) =
      (pushSegment current.reverse (segmentsFrom true ⟨1, false, false⟩ [' '] rest).1,
        (segmentsFrom true ⟨1, false, false⟩ [' '] rest).2) := by
  have space := segmentsFrom_append (uncut_inert (a := [' ']) (by decide) ⟨1, false, false⟩) [] rest
  rw [kept_inert (by decide), run_inert (by decide)] at space
  rw [segmentsFrom_divide hd hq, show ' ' :: rest = [' '] ++ rest from rfl, space]
  rfl

theorem segments?_listText_eq (items : List (List Char)) :
    segments? (listText items) =
      if (segmentsFrom true ⟨1, false, false⟩ [] (joined items ++ ['\x7d'])).2.isBalanced then
        some (segmentsFrom true ⟨1, false, false⟩ [] (joined items ++ ['\x7d'])).1
      else none := segments?_open _

/-- Items between braces come out as they went in. -/
theorem segments?_listText {items : List (List Char)} (h : ∀ t ∈ items, Item t) :
    segments? (listText items) = some items := by
  rw [listText, ← rowText_spaced, segments?_row (isRow_spaced h), map_item_spaced]

end ScriptBridge.Group
