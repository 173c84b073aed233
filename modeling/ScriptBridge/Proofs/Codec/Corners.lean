import ScriptBridge.Proofs.Codec.Leaves
/-!
Rectangles that are written as they were read.

A rectangle is read from the numbers of two corners and kept by its origin and its size. The origin
and the size must fit into 32 bits, and the corner across from the origin need not: a rectangle may
start at the last point of the screen and be one point wide. That corner is what is written, and it
is found by adding in 32 bits. So the numbers that were read are written exactly if both corners are
points of the screen. Otherwise the sum wraps around, and what is written is no rectangle any more
(`rectangle_rewritten_iff`).
-/
namespace ScriptBridge.Codec

open Number

/-! ## Numbers in braces, told apart -/

/-- Whether numbers fit into 64 bits. -/
def AllInt64 (numbers : List Int) : Prop :=
  ∀ n ∈ numbers, -9223372036854775808 ≤ n ∧ n ≤ 9223372036854775807

instance (numbers : List Int) : Decidable (AllInt64 numbers) :=
  inferInstanceAs (Decidable (∀ n ∈ numbers, _))

theorem braced_injective {a b : List Int} (hne : a ≠ []) (same : a.length = b.length)
    (ha : AllInt64 a) (hb : AllInt64 b) (h : braced a = braced b) : a = b := by
  have hne' : b ≠ [] := by
    rw [← List.length_pos_iff, ← same, List.length_pos_iff]
    exact hne
  have readA := readTuple_braced .rectangle hne ha
  have readB := readTuple_braced .rectangle hne' hb
  rw [h, same, readB] at readA
  exact (Except.ok.inj readA).symm

/-! ## The numbers of a rectangle -/

/-- The numbers that are written for a rectangle, with the far corner added up in 32 bits. -/
def writtenCorners (r : Rectangle) : List Int :=
  [r.x.toInt, r.y.toInt, (r.x + r.width).toInt, (r.y + r.height).toInt]

theorem rectangle_encode (r : Rectangle) :
    rectangle.encode (.rectangle r) = .ok (braced (writtenCorners r)) := rfl

theorem writtenCorners_eq_iff {r : Rectangle} : writtenCorners r = corners r ↔ HasFarCorner r := by
  simp only [writtenCorners, corners, List.cons.injEq, true_and, and_true, toInt_add_eq_iff,
    HasFarCorner]

theorem allInt64_corners (r : Rectangle) : AllInt64 (corners r) := by
  have := r.x.le_toInt
  have := r.x.toInt_lt
  have := r.y.le_toInt
  have := r.y.toInt_lt
  have := r.width.le_toInt
  have := r.width.toInt_lt
  have := r.height.le_toInt
  have := r.height.toInt_lt
  simp only [AllInt64, corners, List.forall_mem_cons, List.not_mem_nil, false_imp_iff, implies_true,
    and_true]
  omega

theorem allInt64_writtenCorners (r : Rectangle) : AllInt64 (writtenCorners r) := by
  simp only [AllInt64, writtenCorners, List.forall_mem_cons, List.not_mem_nil, false_imp_iff,
    implies_true, and_true]
  exact ⟨int64_of_fitsInt32 (fitsInt32_toInt _), int64_of_fitsInt32 (fitsInt32_toInt _),
    int64_of_fitsInt32 (fitsInt32_toInt _), int64_of_fitsInt32 (fitsInt32_toInt _)⟩

/-- Four numbers in braces are read as the rectangle with these corners. -/
theorem rectangle_decode_braced_iff {numbers : List Int} (four : numbers.length = 4)
    (h : AllInt64 numbers) (application : Option String) (r : Rectangle) :
    rectangle.decode (answer (braced numbers) application) = .ok (.rectangle r) ↔
      numbers = corners r := by
  have hne : numbers ≠ [] := by
    rintro rfl
    cases four
  have read := readTuple_braced .rectangle hne h
  rw [four] at read
  have filled : isMissingValue (some (braced numbers)) = false := by
    apply isMissingValue_eq_false (braced_item numbers).tight
    rw [toList_braced]
    simp [Group.listText]
  rw [show rectangle.decode = decodeTuple .rectangle 4 rectangleOf? from rfl, decodeTuple_eq_ok_iff]
  simp only [answer, Reference.objectText, Option.getD_some, read, filled, Bool.false_eq_true,
    false_and, true_and, false_or, Except.ok.injEq, exists_eq_left', rectangleOf?_eq_some_iff]

/-- A rectangle that was read is the one between the corners that the text has. It is written as
these corners, and read again from what is written, exactly if the far corner fits into 32 bits
like the origin does. -/
theorem rectangle_rewritten_iff {reference : Reference} {r : Rectangle}
    (read : rectangle.decode reference = .ok (.rectangle r)) :
    readTuple .rectangle 4 reference.objectText = .ok (corners r) ∧
      ∃ text, rectangle.encode (.rectangle r) = .ok text ∧
        (text = braced (corners r) ↔ HasFarCorner r) ∧
        ∀ application,
          rectangle.decode (answer text application) = .ok (.rectangle r) ↔ HasFarCorner r := by
  rw [show rectangle.decode = decodeTuple .rectangle 4 rectangleOf? from rfl,
    decodeTuple_eq_ok_iff] at read
  obtain ⟨-, missing⟩ | ⟨-, numbers, found, built⟩ := read
  · cases missing
  rw [rectangleOf?_eq_some_iff] at built
  refine ⟨built ▸ found, _, rectangle_encode r, ?_, fun application => ?_⟩
  · rw [← writtenCorners_eq_iff]
    refine ⟨fun same => ?_, congrArg braced⟩
    exact braced_injective (List.cons_ne_nil _ _) rfl (allInt64_writtenCorners r)
      (allInt64_corners r) same
  · rw [rectangle_decode_braced_iff rfl (allInt64_writtenCorners r), writtenCorners_eq_iff]

/-- The rectangle of one point that starts at the last one of the screen is read but not written
again, and the widest one that ends there is both. -/
theorem rectangle_rewritten_ends :
    (rectangle.decode (answer (braced [2147483647, 0, 2147483648, 0]) none) =
        .ok (.rectangle ⟨2147483647, 0, 1, 0⟩) ∧
      ¬∃ text, rectangle.encode (.rectangle ⟨2147483647, 0, 1, 0⟩) = .ok text ∧
        rectangle.decode (answer text none) = .ok (.rectangle ⟨2147483647, 0, 1, 0⟩)) ∧
    rectangle.decode (answer (braced [0, -2147483648, 2147483647, -1]) none) =
        .ok (.rectangle ⟨0, -2147483648, 2147483647, 2147483647⟩) ∧
      ∃ text, rectangle.encode (.rectangle ⟨0, -2147483648, 2147483647, 2147483647⟩) = .ok text ∧
        rectangle.decode (answer text none) =
          .ok (.rectangle ⟨0, -2147483648, 2147483647, 2147483647⟩) := by
  have overflowing : rectangle.decode (answer (braced [2147483647, 0, 2147483648, 0]) none) =
      .ok (.rectangle ⟨2147483647, 0, 1, 0⟩) :=
    (rectangle_decode_braced_iff rfl (by decide) none _).mpr (by decide)
  have fitting : rectangle.decode (answer (braced [0, -2147483648, 2147483647, -1]) none) =
      .ok (.rectangle ⟨0, -2147483648, 2147483647, 2147483647⟩) :=
    (rectangle_decode_braced_iff rfl (by decide) none _).mpr (by decide)
  obtain ⟨-, text, written, -, again⟩ := rectangle_rewritten_iff overflowing
  obtain ⟨-, text', written', -, again'⟩ := rectangle_rewritten_iff fitting
  refine ⟨⟨overflowing, ?_⟩, fitting, text', written', (again' none).mpr (by decide)⟩
  rintro ⟨other, writes, reads⟩
  obtain rfl := Except.ok.inj (writes.symm.trans written)
  exact absurd ((again none).mp reads) (by decide)

end ScriptBridge.Codec
