import PackedMatrix.Proofs.AcceptedBitmaps
import PackedMatrix.Proofs.ProfileNumbers

namespace PackedMatrix

/-- A stable sort leaves items in their order that already are in order. -/
theorem filter_mergeSort {α : Type} {le : α → α → Bool}
    (trans : ∀ a b c, le a b = true → le b c = true → le a c = true)
    (total : ∀ a b, (le a b || le b a) = true) (keep : α → Bool) {items : List α}
    (ordered : (items.filter keep).Pairwise fun a b => le a b = true) :
    (items.mergeSort le).filter keep = items.filter keep := by
  have kept := (List.sublist_mergeSort trans total ordered List.filter_sublist).filter keep
  rw [List.filter_filter] at kept
  simp only [Bool.and_self] at kept
  exact (kept.eq_of_length ((List.mergeSort_perm items le).filter keep).length_eq.symm).symm

namespace Bitmap

variable {bitmap : Bitmap} {columns rows : Nat}

/-- The tuples with their lists, in the order of their numbers. -/
def pairs (bitmap : Bitmap) : List (List Cell × List Nat) :=
  (List.range bitmap.tuples).map fun i => (bitmap.tuple i, bitmap.list i)

/-- A numbered list with the tuple that has its number. -/
def pairOf (bitmap : Bitmap) (entry : List Nat × Nat) : List Cell × List Nat :=
  (bitmap.tuple entry.2, entry.1)

theorem pairs_eq (bitmap : Bitmap) : bitmap.pairs = bitmap.lists.zipIdx.map bitmap.pairOf := by
  refine List.ext_getElem (by simp [pairs, tuples]) fun i first second => ?_
  have bound : i < bitmap.lists.length := by simpa using second
  simp [pairs, pairOf, list_eq_getElem bound]

theorem pairs_renumber (valid : bitmap.WellFormed columns rows) {order : List Nat}
    (perm : order.Perm (List.range bitmap.tuples)) :
    (bitmap.renumber order).pairs = order.map fun i => (bitmap.tuple i, bitmap.list i) := by
  have length : (bitmap.renumber order).tuples = order.length := by simp [renumber, tuples]
  refine List.ext_getElem (by simp [pairs, length]) fun i _ second => ?_
  have bound : i < order.length := by simpa using second
  simp [pairs, tuple_renumber valid perm bound, list_renumber bound]

/-- The sorted pairs are those of the sorted lists. -/
theorem pairs_sortByFrequency (valid : bitmap.WellFormed columns rows)
    (filled : bitmap.lists ≠ []) :
    bitmap.sortByFrequency.pairs = (byFrequency bitmap.lists).map bitmap.pairOf := by
  rw [sortByFrequency_eq filled, pairs_renumber valid bitmap.frequencyOrder_perm, frequencyOrder,
    List.map_map]
  apply List.map_congr_left
  rintro ⟨list, place⟩ member
  obtain ⟨bound, here⟩ := List.getElem?_eq_some_iff.mp (mem_byFrequency.mp member)
  have same : bitmap.list place = list := (list_eq_getElem bound).trans here
  rw [Function.comp_apply, pairOf, same]

theorem filter_byFrequency (lists : List (List Nat)) (length : Nat) :
    (byFrequency lists).filter (·.1.length = length) =
      lists.zipIdx.filter (·.1.length = length) := by
  refine filter_mergeSort frequency_trans frequency_total _ ?_
  refine List.pairwise_of_forall_mem_list fun a first b second => ?_
  have here := (List.mem_filter.mp first).2
  have there := (List.mem_filter.mp second).2
  simp only [decide_eq_true_eq] at here there ⊢
  omega

theorem filter_pairs_sortByFrequency (valid : bitmap.WellFormed columns rows)
    (filled : bitmap.lists ≠ []) (length : Nat) :
    bitmap.sortByFrequency.pairs.filter (·.2.length = length) =
      bitmap.pairs.filter (·.2.length = length) := by
  have kept := filter_byFrequency bitmap.lists length
  rw [pairs_sortByFrequency valid filled, pairs_eq, List.filter_map, List.filter_map]
  exact congrArg (List.map bitmap.pairOf) kept

/-- A bitmap whose longer lists come first is sorted already. -/
theorem sortByFrequency_of_pairwise (valid : bitmap.WellFormed columns rows)
    (ordered : bitmap.lists.Pairwise fun a b => b.length ≤ a.length) :
    bitmap.sortByFrequency = bitmap := by
  by_cases filled : bitmap.lists = []
  · simp [sortByFrequency, filled]
  · have sorted : bitmap.lists.zipIdx.Pairwise
        fun a b => decide (b.1.length ≤ a.1.length) = true := by
      rw [← List.zipIdx_map_fst 0 bitmap.lists, List.pairwise_map] at ordered
      exact ordered.imp decide_eq_true
    have order : bitmap.frequencyOrder = List.range bitmap.tuples := by
      rw [frequencyOrder, List.mergeSort_of_pairwise sorted, List.zipIdx_map_snd, tuples,
        List.range_eq_range']
    have lists : (List.range bitmap.tuples).map bitmap.list = bitmap.lists := by
      refine List.ext_getElem (by simp [tuples]) fun i _ second => ?_
      simp [list_eq_getElem second]
    rw [sortByFrequency_eq filled, order, renumber, flatMap_tuple valid.values, lists]

theorem pairwise_lists_sortByFrequency (filled : bitmap.lists ≠ []) :
    bitmap.sortByFrequency.lists.Pairwise fun a b => b.length ≤ a.length := by
  have ordered : ((byFrequency bitmap.lists).map Prod.fst).Pairwise
      fun a b => b.length ≤ a.length := List.pairwise_map.mpr (pairwise_byFrequency bitmap.lists)
  have nonempty : bitmap.lists.isEmpty = false := by simpa using filled
  simpa [sortByFrequency, nonempty, byFrequency] using ordered

/-- The pair of the first longest list comes first. -/
theorem head?_pairs_sortByFrequency (valid : bitmap.WellFormed columns rows) {i : Nat}
    (largest : IsLargest bitmap.lists i) :
    bitmap.sortByFrequency.pairs.head? = some (bitmap.tuple i, bitmap.list i) := by
  have filled : bitmap.lists ≠ [] := List.ne_nil_of_length_pos (Nat.zero_lt_of_lt largest.inside)
  obtain ⟨rest, order⟩ := head_frequencyOrder largest
  rw [sortByFrequency_eq filled, pairs_renumber valid bitmap.frequencyOrder_perm, order]
  rfl

/-- Sparse coding has the same shape for the sorted bitmap, and lists the same rows. -/
theorem forBitmap?_sortByFrequency {i : Nat} (largest : IsLargest bitmap.lists i) (rows : Nat) :
    ∃ shape, SparseShape.forBitmap? bitmap rows = some (shape, i) ∧
      SparseShape.forBitmap? bitmap.sortByFrequency rows = some (shape, 0) ∧
      shape.explicitRows bitmap.sortByFrequency rows 0 = shape.explicitRows bitmap rows i := by
  have filled : bitmap.lists ≠ [] := List.ne_nil_of_length_pos (Nat.zero_lt_of_lt largest.inside)
  obtain ⟨front, same⟩ := isLargest_sortByFrequency largest
  have tuples := tuples_renumber bitmap.frequencyOrder_perm
  have zeros : (bitmap.renumber bitmap.frequencyOrder).zeros rows = bitmap.zeros rows :=
    zeros_renumber bitmap.frequencyOrder_perm
  rw [← sortByFrequency_eq filled] at tuples zeros
  refine ⟨SparseShape.choose bitmap.tuples (bitmap.zeros rows) (bitmap.list i).length, ?_, ?_, ?_⟩
  · rw [SparseShape.forBitmap?, largest?_eq_of_isLargest largest, Option.map_some]
  · rw [SparseShape.forBitmap?, largest?_eq_of_isLargest front, Option.map_some, tuples, zeros,
      same]
  · obtain ⟨one, few, _⟩ := SparseShape.choose_spec bitmap.tuples (bitmap.zeros rows)
      (bitmap.list i).length
    exact CostProfile.explicitRows_sortByFrequency largest _ fun single =>
      single.elim one fun zero => (few zero).1

/-- Sorting an accepted bitmap by frequency moves tuples together with their lists, so that longer
lists come first and lists of the same length keep their order. The sorted bitmap is accepted and
stays as it is in a second sort, and as many rows are listed as before. Its first pair is the one of
the list that was found to be the largest, and for any number of rows sparse coding has the same
shape and lists the same rows, so that the rows of the default are the same. -/
theorem sortByFrequency_relabels {columns : List Nat}
    (accepted : bitmap.validate columns rows = .ok ()) (filled : bitmap.lists ≠ []) :
    bitmap.sortByFrequency.pairs.Perm bitmap.pairs ∧
    bitmap.sortByFrequency.pairs.Pairwise (fun a b => b.2.length ≤ a.2.length) ∧
    (∀ length, bitmap.sortByFrequency.pairs.filter (·.2.length = length) =
      bitmap.pairs.filter (·.2.length = length)) ∧
    bitmap.sortByFrequency.validate columns rows = .ok () ∧
    bitmap.sortByFrequency.sortByFrequency = bitmap.sortByFrequency ∧
    bitmap.sortByFrequency.offsets = bitmap.offsets ∧
    (∀ count, bitmap.sortByFrequency.zeros count = bitmap.zeros count) ∧
    ∃ largest length, bitmap.largest? = some (largest, length) ∧ largest < bitmap.tuples ∧
      bitmap.sortByFrequency.pairs.head? = some (bitmap.tuple largest, bitmap.list largest) ∧
      ∀ count, ∃ shape, SparseShape.forBitmap? bitmap count = some (shape, largest) ∧
        SparseShape.forBitmap? bitmap.sortByFrequency count = some (shape, 0) ∧
        shape.explicitRows bitmap.sortByFrequency count 0 =
          shape.explicitRows bitmap count largest := by
  obtain ⟨width, fit⟩ := validate_eq_ok_iff.mp accepted
  have valid := fit filled
  have offsets := offsets_renumber bitmap.frequencyOrder_perm
  rw [← sortByFrequency_eq filled] at offsets
  obtain ⟨largest, first⟩ := exists_isLargest filled
  refine ⟨?_, ?_, filter_pairs_sortByFrequency valid filled, ?_,
    sortByFrequency_of_pairwise valid.sortByFrequency (pairwise_lists_sortByFrequency filled),
    offsets, fun count => by rw [zeros, zeros, offsets], largest, _,
    largest?_eq_of_isLargest first, first.inside, head?_pairs_sortByFrequency valid first,
    fun count => forBitmap?_sortByFrequency first count⟩
  · rw [pairs_sortByFrequency valid filled, pairs_eq]
    exact (List.mergeSort_perm _ _).map _
  · rw [pairs_sortByFrequency valid filled, List.pairwise_map]
    exact pairwise_byFrequency bitmap.lists
  · exact validate_eq_ok_iff.mpr ⟨valid.sortByFrequency.width, fun _ => valid.sortByFrequency⟩

/-- Tuples of two cells; the second and the third one are held by as many rows. -/
def tiedPairs : Bitmap where
  width := 2
  values := #[⟨1⟩, ⟨2⟩, ⟨3⟩, ⟨4⟩, ⟨5⟩, ⟨6⟩]
  lists := [[4], [0, 3], [1, 5]]

theorem sortByFrequency_relabels_tiedPairs : tiedPairs.validate [2, 7] 6 = .ok () ∧
    tiedPairs.sortByFrequency = ⟨2, #[⟨3⟩, ⟨4⟩, ⟨5⟩, ⟨6⟩, ⟨1⟩, ⟨2⟩], [[0, 3], [1, 5], [4]]⟩ ∧
    tiedPairs.sortByFrequency.sortByFrequency = tiedPairs.sortByFrequency ∧
    tiedPairs.sortByFrequency.pairs.Perm tiedPairs.pairs ∧
    tiedPairs.largest? = some (1, 2) := by
  have accepted : tiedPairs.validate [2, 7] 6 = .ok () :=
    validate_eq_ok_iff.mpr ⟨rfl, fun _ =>
      ⟨rfl, by decide, by decide, by decide, by decide, by decide⟩⟩
  have order : tiedPairs.lists.zipIdx.mergeSort
      (fun a b => decide (b.1.length ≤ a.1.length)) = [([0, 3], 1), ([1, 5], 2), ([4], 0)] := by
    simp [tiedPairs, List.mergeSort, List.MergeSort.Internal.splitInTwo]
  have sorted : tiedPairs.sortByFrequency =
      ⟨2, #[⟨3⟩, ⟨4⟩, ⟨5⟩, ⟨6⟩, ⟨1⟩, ⟨2⟩], [[0, 3], [1, 5], [4]]⟩ := by
    simp only [sortByFrequency, order]
    decide
  obtain ⟨perm, _, _, _, again, _, _, _⟩ := sortByFrequency_relabels accepted (by decide)
  exact ⟨accepted, sorted, again, perm, by decide⟩

end Bitmap

end PackedMatrix
