import PackedMatrix.Cost
import PackedMatrix.Proofs.SparseShapes

namespace PackedMatrix

theorem total_perm {a b : List Nat} (perm : a.Perm b) : total a = total b := by
  induction perm with
  | nil => rfl
  | cons count _ ih => rw [total_cons, total_cons, ih]
  | swap first second rest =>
    simp only [total_cons]
    omega
  | trans _ _ front back => exact front.trans back

theorem total_map_flatten {α : Type} (weight : α → Nat) (lists : List (List α)) :
    total (lists.flatten.map weight) = total (lists.map fun list => total (list.map weight)) := by
  induction lists with
  | nil => rfl
  | cons list rest ih => rw [List.flatten_cons, List.map_append, total_append, ih]; rfl

theorem total_map_const {α : Type} {weight : α → Nat} {list : List α} {value : Nat}
    (same : ∀ item ∈ list, weight item = value) :
    total (list.map weight) = value * list.length := by
  induction list with
  | nil => rfl
  | cons item rest ih =>
    rw [List.map_cons, total_cons, same item (by simp),
      ih fun other member => same other (List.mem_cons_of_mem _ member), List.length_cons]
    rw [Nat.mul_succ, Nat.add_comm]

/-- A sum over the items that are kept and over the others. -/
theorem total_map_filter {α : Type} (weight : α → Nat) (keep : α → Bool) (list : List α) :
    total ((list.filter keep).map weight) + total ((list.filter (!keep ·)).map weight) =
      total (list.map weight) := by
  rw [← total_append, ← List.map_append]
  exact total_perm ((List.filter_append_perm keep list).map weight)

namespace Bitmap

variable {bitmap : Bitmap} {columns rows : Nat}

/-- Listed rows come before the others up to their order. -/
theorem WellFormed.flatten_append_perm (valid : bitmap.WellFormed columns rows) :
    (bitmap.lists.flatten ++
      (List.range rows).filter (fun row => !bitmap.lists.flatten.contains row)).Perm
        (List.range rows) := by
  refine List.Perm.trans (List.Perm.append_right _ ?_)
    (List.filter_append_perm bitmap.lists.flatten.contains (List.range rows))
  refine (List.perm_ext_iff_of_nodup valid.distinct (List.nodup_range.filter _)).mpr ?_
  intro row
  rw [List.mem_filter, List.contains_iff_mem, List.mem_range]
  constructor
  · intro member
    obtain ⟨i, listed⟩ := mem_flatten_iff.mp member
    exact ⟨valid.row_lt listed, member⟩
  · exact fun both => both.2

/-- The cells that are not zero, counted by tuples or by rows. -/
theorem Shows.total_nonZeros {tupleOf : Nat → List Cell} (valid : bitmap.WellFormed columns rows)
    (shown : bitmap.Shows rows tupleOf) :
    total (bitmap.lists.zipIdx.map fun entry =>
        (bitmap.tuple entry.2).countP (!·.isZero) * entry.1.length) =
      total ((List.range rows).map fun row => (tupleOf row).countP (!·.isZero)) := by
  have others : total (((List.range rows).filter fun row =>
      !bitmap.lists.flatten.contains row).map fun row => (tupleOf row).countP (!·.isZero)) = 0 := by
    refine (total_map_const ?_).trans (Nat.zero_mul _)
    intro row member
    obtain ⟨inRow, absent⟩ := List.mem_filter.mp member
    have zero := shown.zero row (List.mem_range.mp inRow) (by simpa using absent)
    rw [isZeroTuple, List.all_eq_true] at zero
    rw [List.countP_eq_zero]
    intro cell inside
    simp [zero cell inside]
  have lists : total (bitmap.lists.flatten.map fun row => (tupleOf row).countP (!·.isZero)) =
      total (bitmap.lists.zipIdx.map fun entry =>
        (bitmap.tuple entry.2).countP (!·.isZero) * entry.1.length) := by
    have plain : bitmap.lists = bitmap.lists.zipIdx.map Prod.fst := by rw [List.zipIdx_map_fst]
    rw [total_map_flatten]
    conv_lhs => rw [plain, List.map_map]
    congr 1
    apply List.map_congr_left
    rintro ⟨list, i⟩ member
    obtain ⟨bound, here⟩ := List.mem_zipIdx' member
    apply total_map_const
    intro row listed
    rw [shown.listed i row (by rw [list_eq_getElem bound, ← here]; exact listed)]
  rw [← total_perm (valid.flatten_append_perm.map _), List.map_append, total_append, others, lists,
    Nat.add_zero]

/-- Sorting by frequency does not make a bitmap constant. -/
theorem WellFormed.single_sortByFrequency (valid : bitmap.WellFormed columns rows)
    (filled : bitmap.lists ≠ []) :
    (bitmap.sortByFrequency.tuples = 1 ∧ (bitmap.sortByFrequency.list 0).length = rows) ↔
      bitmap.tuples = 1 ∧ (bitmap.list 0).length = rows := by
  have tuples := tuples_renumber bitmap.frequencyOrder_perm
  have zeros : (bitmap.renumber bitmap.frequencyOrder).zeros rows = bitmap.zeros rows :=
    zeros_renumber bitmap.frequencyOrder_perm
  rw [← sortByFrequency_eq filled] at tuples zeros
  rw [tuples]
  refine and_congr_right fun single => ?_
  rw [← valid.zeros_eq_zero_iff_of_single single,
    ← valid.sortByFrequency.zeros_eq_zero_iff_of_single (tuples.trans single), zeros]

theorem exists_isLargest (filled : bitmap.lists ≠ []) : ∃ i, IsLargest bitmap.lists i := by
  rcases foldl_longer bitmap.lists with ⟨empty, _⟩ | ⟨i, largest, _⟩
  · exact absurd empty filled
  · exact ⟨i, largest⟩

end Bitmap

namespace SparseShape

variable {bitmap : Bitmap} {columns rows : Nat}

theorem length_covered (valid : bitmap.WellFormed columns rows) :
    (covered rows bitmap.lists).length = bitmap.offsets := by
  rw [Bitmap.offsets_eq]
  refine ((List.perm_ext_iff_of_nodup (Increasing.nodup (increasing_covered _ _))
    valid.distinct).mpr ?_).length_eq
  exact fun row => mem_covered valid

theorem length_complement {list : List Nat} (sorted : list.Pairwise (· < ·))
    (inside : ∀ row ∈ list, row < rows) :
    (complement rows 0 list #[]).toList.length = rows - list.length := by
  have disjoint : list.Disjoint (complement rows 0 list #[]).toList :=
    fun row member outside => ((mem_complement sorted).mp outside).2 member
  have both : (list ++ (complement rows 0 list #[]).toList).Perm (List.range rows) := by
    refine (List.perm_ext_iff_of_nodup (List.Nodup.append (Increasing.nodup sorted)
      (Increasing.nodup (increasing_complement sorted)) disjoint) List.nodup_range).mpr ?_
    intro row
    rw [List.mem_append, mem_complement sorted, List.mem_range]
    by_cases member : row ∈ list
    · simp [member, inside row member]
    · simp [member]
  have length := both.length_eq
  rw [List.length_append, List.length_range] at length
  omega

end SparseShape

namespace CostProfile

variable {bitmap : Bitmap} {columns rows : Nat}

theorem explicitRows_sortByFrequency {i : Nat} (largest : Bitmap.IsLargest bitmap.lists i)
    (shape : SparseShape) (single : shape = .singleZeros ∨ shape = .single → bitmap.tuples = 1) :
    shape.explicitRows bitmap.sortByFrequency rows 0 = shape.explicitRows bitmap rows i := by
  obtain ⟨_, same⟩ := Bitmap.isLargest_sortByFrequency largest
  have first : bitmap.tuples = 1 → i = 0 := by
    intro only
    have inside := largest.inside
    rw [Bitmap.tuples] at only
    omega
  have filled : bitmap.lists ≠ [] := List.ne_nil_of_length_pos (Nat.zero_lt_of_lt largest.inside)
  cases shape with
  | singleZeros =>
    obtain rfl := first (single (.inl rfl))
    exact same
  | single =>
    obtain rfl := first (single (.inr rfl))
    rw [SparseShape.explicitRows, same]
    rfl
  | general =>
    rw [SparseShape.explicitRows, same]
    rfl
  | zeros =>
    have perm := (Bitmap.lists_renumber bitmap.frequencyOrder_perm).flatten
    rw [← Bitmap.sortByFrequency_eq filled] at perm
    simp only [SparseShape.explicitRows, SparseShape.covered_eq]
    apply List.filter_congr
    intro row _
    rw [Bool.eq_iff_iff, List.contains_iff_mem, List.contains_iff_mem]
    exact perm.mem_iff

/-- Sorting by frequency changes nothing that is counted but the place of the largest list. -/
theorem ofBitmap_sortByFrequency (valid : bitmap.WellFormed columns rows) {i : Nat}
    (largest : Bitmap.IsLargest bitmap.lists i) {tupleOf : Nat → List Cell}
    (shown : bitmap.Shows rows tupleOf) (blockSize : Nat) :
    ofBitmap bitmap.sortByFrequency rows blockSize =
      { ofBitmap bitmap rows blockSize with largest := some (0, (bitmap.list i).length) } := by
  have filled : bitmap.lists ≠ [] := List.ne_nil_of_length_pos (Nat.zero_lt_of_lt largest.inside)
  obtain ⟨front, same⟩ := Bitmap.isLargest_sortByFrequency largest
  have perm := bitmap.frequencyOrder_perm
  have counted := shown.total_nonZeros valid
  have counted' := (shown.sortByFrequency valid).total_nonZeros valid.sortByFrequency
  have found := Bitmap.largest?_eq_of_isLargest largest
  have found' := Bitmap.largest?_eq_of_isLargest front
  have rowsOf : ∀ shape : SparseShape,
      (shape = .singleZeros ∨ shape = .single → bitmap.tuples = 1) →
      shape.explicitRows bitmap.sortByFrequency rows 0 = shape.explicitRows bitmap rows i :=
    fun shape single => explicitRows_sortByFrequency largest shape single
  have lists := Bitmap.lists_renumber perm
  have tuples := Bitmap.tuples_renumber perm
  have offsets := Bitmap.offsets_renumber perm
  have zeros : (bitmap.renumber bitmap.frequencyOrder).zeros rows = bitmap.zeros rows :=
    Bitmap.zeros_renumber perm
  rw [← Bitmap.sortByFrequency_eq filled] at lists tuples offsets zeros
  rw [same] at found'
  have words := total_perm (lists.map (OffsetStreams.streamLength blockSize))
  have pairs := total_perm (lists.map RunStreams.pairCount)
  have width : bitmap.sortByFrequency.width = bitmap.width := by
    rw [Bitmap.sortByFrequency_eq filled]
    rfl
  have single : SparseShape.choose bitmap.tuples (bitmap.zeros rows) (bitmap.list i).length =
      .singleZeros ∨ SparseShape.choose bitmap.tuples (bitmap.zeros rows) (bitmap.list i).length =
        .single → bitmap.tuples = 1 := by
    obtain ⟨one, few, _⟩ := SparseShape.choose_spec bitmap.tuples (bitmap.zeros rows)
      (bitmap.list i).length
    rintro (zero | zero)
    · exact one zero
    · exact (few zero).1
  simp only [ofBitmap, SparseShape.forBitmap?, found, found', width, tuples, offsets, zeros, words,
    pairs, counted, counted', Option.map_some, rowsOf _ single]

/-- The size in an encoding does not depend on the order of the tuples. -/
theorem sizeOf_sortByFrequency (valid : bitmap.WellFormed columns rows)
    (filled : bitmap.lists ≠ []) {tupleOf : Nat → List Cell} (shown : bitmap.Shows rows tupleOf)
    (blockSize : Nat) (encoding : Encoding) :
    (ofBitmap bitmap.sortByFrequency rows blockSize).sizeOf encoding =
      (ofBitmap bitmap rows blockSize).sizeOf encoding := by
  obtain ⟨i, largest⟩ := Bitmap.exists_isLargest filled
  have found := Bitmap.largest?_eq_of_isLargest largest
  rw [ofBitmap_sortByFrequency valid largest shown]
  cases encoding <;> simp only [sizeOf, ofBitmap, isEmpty, isConst, found, streamSize,
    uncompressedSize, SparseShape.forBitmap?, Option.map_some]

end CostProfile

end PackedMatrix
