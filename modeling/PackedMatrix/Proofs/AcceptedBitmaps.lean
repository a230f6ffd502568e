import PackedMatrix.Proofs.DictionaryTuples

namespace PackedMatrix

namespace Bitmap

variable {bitmap : Bitmap} {columns : List Nat} {rows : Nat}

theorem flatMap_tuple (size : bitmap.values.size = bitmap.tuples * bitmap.width) :
    (List.range bitmap.tuples).flatMap bitmap.tuple = bitmap.values.toList := by
  have ordered : ∀ i < bitmap.tuples, i * bitmap.width ≤ (i + 1) * bitmap.width :=
    fun i _ => Nat.mul_le_mul_right _ (Nat.le_succ i)
  have joined := Segments.flatMap_extract bitmap.values (Nat.zero_mul bitmap.width) ordered
  rwa [← size, ← Array.length_toList, List.take_length] at joined

/-- The cells are cut into one tuple for each list exactly if there are enough of them. -/
theorem exists_tuples_iff : bitmap.values.size = bitmap.tuples * bitmap.width ↔
    ∃ tuples : List (List Cell), tuples.length = bitmap.lists.length ∧
      (∀ tuple ∈ tuples, tuple.length = bitmap.width) ∧
        bitmap.values.toList = tuples.flatten := by
  constructor
  · intro size
    refine ⟨(List.range bitmap.tuples).map bitmap.tuple, by simp [tuples], ?_, ?_⟩
    · intro tuple member
      obtain ⟨i, listed, rfl⟩ := List.mem_map.mp member
      have bound := List.mem_range.mp listed
      have upTo : (i + 1) * bitmap.width ≤ bitmap.values.size := by
        rw [size]
        exact Nat.mul_le_mul_right _ bound
      rw [Nat.succ_mul] at upTo
      simp only [Bitmap.tuple, Array.length_toList, Array.size_extract, Nat.succ_mul]
      omega
    · rw [← List.flatMap_def, flatMap_tuple size]
  · rintro ⟨tuples, count, widths, cut⟩
    have size := Segments.offset_of_width widths (Nat.le_refl _)
    rw [Segments.offset_length, ← cut, Array.length_toList, count] at size
    exact size

theorem width_ne_zero_of_validate (accepted : bitmap.validate columns rows = .ok ())
    (nonempty : columns ≠ []) : bitmap.width ≠ 0 := by
  rw [(validate_eq_ok_iff.mp accepted).1]
  exact Nat.ne_of_gt (List.length_pos_iff.mpr nonempty)

/-- Over columns, the dictionary of an accepted bitmap has one tuple for each list, unless there are
no lists and the values make up a tuple all the same. -/
theorem tuples_ofBitmap_iff (accepted : bitmap.validate columns rows = .ok ())
    (nonempty : columns ≠ []) : (Dictionary.ofBitmap bitmap).tuples = bitmap.tuples ↔
      (bitmap.lists = [] → bitmap.values.size < columns.length) := by
  obtain ⟨width, whole⟩ := validate_eq_ok_iff.mp accepted
  have positive := List.length_pos_iff.mpr nonempty
  by_cases none_ : bitmap.lists = []
  · have count : (Dictionary.ofBitmap bitmap).tuples = bitmap.values.size / columns.length := by
      rw [Dictionary.tuples, Dictionary.ofBitmap, width]
    rw [count, tuples, none_, List.length_nil, Nat.div_eq_zero_iff]
    exact ⟨fun few _ => few.resolve_left (Nat.ne_of_gt positive), fun few => .inr (few rfl)⟩
  · have held := Dictionary.holds_ofBitmap (whole none_)
    rw [held.tuples_eq positive, Dictionary.length_tuplesOf]
    exact iff_of_true rfl fun blank => absurd blank none_

/-- A value that belongs to no list. -/
def strayTuple : Bitmap := ⟨1, #[⟨7⟩], []⟩

/-- No row is in two lists exactly if increasing lists, one behind the other, repeat no row. -/
theorem nodup_flatten_iff (increasing : ∀ list ∈ bitmap.lists, list.Pairwise (· < ·)) :
    bitmap.lists.flatten.Nodup ↔ bitmap.lists.Pairwise fun a b => ∀ row ∈ a, row ∉ b := by
  rw [List.nodup_flatten]
  exact ⟨fun both => both.2, fun apart =>
    ⟨fun list member => Increasing.nodup (increasing list member), apart⟩⟩

/-- A bitmap with the same lists in another order, and as many cells, is accepted as well. -/
theorem WellFormed.of_perm {other : Bitmap} {columns : Nat} (valid : bitmap.WellFormed columns rows)
    (width : other.width = bitmap.width) (size : other.values.size = bitmap.values.size)
    (perm : other.lists.Perm bitmap.lists) : other.WellFormed columns rows where
  width := width.trans valid.width
  values := by rw [size, valid.values, tuples, tuples, perm.length_eq, width]
  nonempty := fun list member => valid.nonempty list (perm.mem_iff.mp member)
  increasing := fun list member => valid.increasing list (perm.mem_iff.mp member)
  inside := fun list member => valid.inside list (perm.mem_iff.mp member)
  distinct := perm.flatten.nodup_iff.mpr valid.distinct

theorem validate_of_perm {other : Bitmap} (width : other.width = bitmap.width)
    (size : other.values.size = bitmap.values.size) (perm : other.lists.Perm bitmap.lists)
    (valid : bitmap.validate columns rows = .ok ()) : other.validate columns rows = .ok () := by
  obtain ⟨wide, fit⟩ := validate_eq_ok_iff.mp valid
  refine validate_eq_ok_iff.mpr ⟨width.trans wide, fun filled => ?_⟩
  refine (fit fun none_ => filled ?_).of_perm width size perm
  rw [none_] at perm
  exact perm.eq_nil

/-- A bitmap with lists is accepted exactly if its width is that of the group, its cells are one
tuple of that width for each list, no list is empty, all increase below the number of rows, and no
two share a row. The lists then name no more rows than there are, and whether a bitmap is accepted
does not depend on the order of its lists. -/
theorem validate_accepts_disjoint (filled : bitmap.lists ≠ []) (columns : List Nat) (rows : Nat) :
    (bitmap.validate columns rows = .ok () ↔ bitmap.width = columns.length ∧
      (∃ tuples : List (List Cell), tuples.length = bitmap.lists.length ∧
        (∀ tuple ∈ tuples, tuple.length = bitmap.width) ∧
          bitmap.values.toList = tuples.flatten) ∧
      (∀ list ∈ bitmap.lists, list ≠ [] ∧ list.Pairwise (· < ·) ∧ ∀ row ∈ list, row < rows) ∧
      bitmap.lists.Pairwise fun a b => ∀ row ∈ a, row ∉ b) ∧
    (bitmap.validate columns rows = .ok () → total (bitmap.lists.map List.length) ≤ rows) ∧
    ∀ other : Bitmap, other.width = bitmap.width → other.values.size = bitmap.values.size →
      other.lists.Perm bitmap.lists →
        (other.validate columns rows = .ok () ↔ bitmap.validate columns rows = .ok ()) := by
  refine ⟨?_, ?_, ?_⟩
  · rw [validate_eq_ok_iff, ← exists_tuples_iff]
    refine and_congr_right fun wide => ⟨fun fit => ?_, ?_⟩
    · have valid := fit filled
      refine ⟨valid.values, fun list member => ⟨valid.nonempty list member,
        valid.increasing list member, valid.inside list member⟩, ?_⟩
      exact (nodup_flatten_iff valid.increasing).mp valid.distinct
    · rintro ⟨values, each, apart⟩ _
      have increasing := fun list member => (each list member).2.1
      exact ⟨wide, values, fun list member => (each list member).1, increasing,
        fun list member => (each list member).2.2, (nodup_flatten_iff increasing).mpr apart⟩
  · intro accepted
    exact ((validate_eq_ok_iff.mp accepted).2 filled).offsets_le
  · intro other width size perm
    exact ⟨validate_of_perm width.symm size.symm perm.symm, validate_of_perm width size perm⟩

/-- Two tuples whose rows alternate across the first sixty-four. -/
def alternating : Bitmap := ⟨1, #[⟨7⟩, ⟨9⟩], [[0, 63, 65], [1, 64]]⟩

/-- The lists are accepted in both orders, but not for fewer rows or with a row named again. -/
theorem validate_accepts_disjoint_alternating : alternating.validate [4] 66 = .ok () ∧
    total (alternating.lists.map List.length) ≤ 66 ∧
      ({ alternating with lists := alternating.lists.reverse } : Bitmap).validate [4] 66 = .ok () ∧
      alternating.validate [4] 65 ≠ .ok () ∧
      ({ alternating with lists := [[0, 63, 64], [1, 64]] } : Bitmap).validate [4] 66 ≠ .ok () := by
  have filled : alternating.lists ≠ [] := by decide
  obtain ⟨accepts, short, reorders⟩ := validate_accepts_disjoint filled [4] 66
  have made : alternating.validate [4] 66 = .ok () :=
    accepts.mpr ⟨rfl, ⟨[[⟨7⟩], [⟨9⟩]], by decide, by decide, by decide⟩, by decide, by decide⟩
  have turned := reorders { alternating with lists := alternating.lists.reverse } rfl rfl
    (List.reverse_perm _)
  refine ⟨made, short made, turned.mpr made, ?_, ?_⟩
  · rw [Ne, (validate_accepts_disjoint (by decide) [4] 65).1]
    exact fun accepted => absurd accepted.2.2.1 (by decide)
  · rw [Ne, (validate_accepts_disjoint (by decide) [4] 66).1]
    exact fun accepted => absurd accepted.2.2.2 (by decide)

end Bitmap

end PackedMatrix
