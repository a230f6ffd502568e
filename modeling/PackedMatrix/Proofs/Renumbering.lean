import PackedMatrix.Proofs.BitmapView

namespace PackedMatrix

namespace Bitmap

/-- The bitmap whose tuples are those of another, in the given order. -/
def renumber (bitmap : Bitmap) (order : List Nat) : Bitmap where
  width := bitmap.width
  values := (order.flatMap bitmap.tuple).toArray
  lists := order.map bitmap.list

/-- The numbers of the tuples, the more frequent ones first. -/
def frequencyOrder (bitmap : Bitmap) : List Nat :=
  (bitmap.lists.zipIdx.mergeSort fun a b => decide (b.1.length ≤ a.1.length)).map Prod.snd

theorem frequencyOrder_perm (bitmap : Bitmap) :
    bitmap.frequencyOrder.Perm (List.range bitmap.tuples) := by
  have perm := (List.mergeSort_perm bitmap.lists.zipIdx
    fun a b => decide (b.1.length ≤ a.1.length)).map Prod.snd
  rwa [List.zipIdx_map_snd, ← List.range_eq_range'] at perm

theorem sortByFrequency_eq {bitmap : Bitmap} (filled : bitmap.lists ≠ []) :
    bitmap.sortByFrequency = bitmap.renumber bitmap.frequencyOrder := by
  have nonempty : bitmap.lists.isEmpty = false := by simpa using filled
  have firsts : (bitmap.lists.zipIdx.mergeSort
      fun a b => decide (b.1.length ≤ a.1.length)).map Prod.fst =
        bitmap.frequencyOrder.map bitmap.list := by
    rw [frequencyOrder, List.map_map]
    apply List.map_congr_left
    rintro ⟨list, place⟩ member
    obtain ⟨bound, here⟩ := List.mem_zipIdx' (List.mem_mergeSort.mp member)
    rw [Function.comp_apply, list_eq_getElem bound, here]
  have seconds : (bitmap.lists.zipIdx.mergeSort
      fun a b => decide (b.1.length ≤ a.1.length)).flatMap (fun entry => bitmap.tuple entry.2) =
        bitmap.frequencyOrder.flatMap bitmap.tuple := by
    rw [frequencyOrder, List.flatMap_map]
  simp only [sortByFrequency, nonempty, Bool.false_eq_true, ↓reduceIte, firsts, seconds]
  rfl

section Renumber

variable {bitmap : Bitmap} {order : List Nat} {columns rows : Nat}

theorem tuples_renumber (perm : order.Perm (List.range bitmap.tuples)) :
    (bitmap.renumber order).tuples = bitmap.tuples := by
  have length := perm.length_eq
  rw [List.length_range] at length
  rw [tuples, renumber, List.length_map, length]

theorem list_renumber {i : Nat} (bound : i < order.length) :
    (bitmap.renumber order).list i = bitmap.list order[i] := by
  simp [renumber, list, List.getD_eq_getElem?_getD, bound]

theorem lists_renumber (perm : order.Perm (List.range bitmap.tuples)) :
    (bitmap.renumber order).lists.Perm bitmap.lists := by
  have all : (List.range bitmap.tuples).map bitmap.list = bitmap.lists := by
    refine List.ext_getElem (by simp [tuples]) ?_
    intro i first second
    simp [list_eq_getElem second]
  have mapped := perm.map bitmap.list
  rwa [all] at mapped

theorem tuple_renumber (valid : bitmap.WellFormed columns rows)
    (perm : order.Perm (List.range bitmap.tuples)) {i : Nat} (bound : i < order.length) :
    (bitmap.renumber order).tuple i = bitmap.tuple order[i] := by
  have widths : ∀ tuple ∈ order.map bitmap.tuple, tuple.length = bitmap.width := by
    intro tuple member
    obtain ⟨place, here, rfl⟩ := List.mem_map.mp member
    rw [valid.width]
    exact valid.length_tuple (List.mem_range.mp (perm.mem_iff.mp here))
  have bound' : i < (order.map bitmap.tuple).length := by simpa using bound
  have part := Segments.extract_flatten bound'
  rw [Segments.offset_of_width widths (Nat.le_of_lt bound'), Segments.offset_of_width widths bound',
    ← List.flatMap_def, List.getElem_map] at part
  exact part

theorem WellFormed.renumber (valid : bitmap.WellFormed columns rows)
    (perm : order.Perm (List.range bitmap.tuples)) :
    (bitmap.renumber order).WellFormed columns rows := by
  have lists := lists_renumber perm
  have count := tuples_renumber perm
  refine ⟨valid.width, ?_, ?_, ?_, ?_, ?_⟩
  · have widths : ∀ tuple ∈ order.map bitmap.tuple, tuple.length = bitmap.width := by
      intro tuple member
      obtain ⟨place, here, rfl⟩ := List.mem_map.mp member
      rw [valid.width]
      exact valid.length_tuple (List.mem_range.mp (perm.mem_iff.mp here))
    have size := Segments.offset_of_width widths (Nat.le_refl _)
    rw [Segments.offset_length, ← List.flatMap_def, List.length_map] at size
    rw [count, Bitmap.renumber, List.size_toArray, size, perm.length_eq, List.length_range]
  · exact fun list member => valid.nonempty list (lists.mem_iff.mp member)
  · exact fun list member => valid.increasing list (lists.mem_iff.mp member)
  · exact fun list member => valid.inside list (lists.mem_iff.mp member)
  · exact lists.flatten.nodup_iff.mpr valid.distinct

theorem offsets_renumber (perm : order.Perm (List.range bitmap.tuples)) :
    (bitmap.renumber order).offsets = bitmap.offsets := by
  rw [offsets_eq, offsets_eq]
  exact (lists_renumber perm).flatten.length_eq

theorem zeros_renumber (perm : order.Perm (List.range bitmap.tuples)) :
    (bitmap.renumber order).zeros rows = bitmap.zeros rows := by
  rw [zeros, zeros, offsets_renumber perm]

/-- Renumbering shows the same rows. -/
theorem Shows.renumber {tupleOf : Nat → List Cell} (valid : bitmap.WellFormed columns rows)
    (perm : order.Perm (List.range bitmap.tuples)) (shown : bitmap.Shows rows tupleOf) :
    (bitmap.renumber order).Shows rows tupleOf := by
  refine ⟨?_, ?_⟩
  · intro i row member
    have bound : i < order.length := by
      have := lt_tuples_of_mem_list member
      simpa [Bitmap.renumber, tuples] using this
    rw [list_renumber bound] at member
    rw [tuple_renumber valid perm bound]
    exact shown.listed _ row member
  · intro row bound absent
    refine shown.zero row bound fun member => absent ?_
    exact (lists_renumber perm).flatten.mem_iff.mpr member

end Renumber

@[simp]
theorem width_sortByFrequency (bitmap : Bitmap) :
    bitmap.sortByFrequency.width = bitmap.width := by
  unfold sortByFrequency
  split
  next => rfl
  next => rfl

theorem sortByFrequency_ne_nil {bitmap : Bitmap} (filled : bitmap.lists ≠ []) :
    bitmap.sortByFrequency.lists ≠ [] := by
  rw [sortByFrequency_eq filled]
  intro none
  have perm := lists_renumber bitmap.frequencyOrder_perm
  rw [none] at perm
  exact filled perm.nil_eq.symm

/-- Sorting by frequency keeps a bitmap well-formed, and the rows that it shows. -/
theorem WellFormed.sortByFrequency {bitmap : Bitmap} {columns rows : Nat}
    (valid : bitmap.WellFormed columns rows) :
    bitmap.sortByFrequency.WellFormed columns rows := by
  by_cases filled : bitmap.lists = []
  · have same : bitmap.sortByFrequency = bitmap := by simp [Bitmap.sortByFrequency, filled]
    rwa [same]
  · rw [sortByFrequency_eq filled]
    exact valid.renumber bitmap.frequencyOrder_perm

theorem Shows.sortByFrequency {bitmap : Bitmap} {columns rows : Nat} {tupleOf : Nat → List Cell}
    (valid : bitmap.WellFormed columns rows) (shown : bitmap.Shows rows tupleOf) :
    bitmap.sortByFrequency.Shows rows tupleOf := by
  by_cases filled : bitmap.lists = []
  · have same : bitmap.sortByFrequency = bitmap := by simp [Bitmap.sortByFrequency, filled]
    rwa [same]
  · rw [sortByFrequency_eq filled]
    exact Shows.renumber valid bitmap.frequencyOrder_perm shown

end Bitmap

end PackedMatrix
