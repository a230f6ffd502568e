import PackedMatrix.Proofs.GroupBuilds
import PackedMatrix.Proofs.ProfileNumbers

namespace PackedMatrix

namespace Group

section Sizes

variable {columns : List Nat} {rows : Nat} {bitmap : Bitmap}
  (valid : bitmap.WellFormed columns.length rows) (nonempty : columns ≠ [])

include valid nonempty

theorem size_dictionary : (Dictionary.ofBitmap bitmap).size =
    Dictionary.estimateSize bitmap.tuples columns.length := by
  rw [(Dictionary.holds_ofBitmap valid).size_eq (List.length_pos_iff.mpr nonempty),
    Dictionary.length_tuplesOf]

/-- Dense coding has one tuple more if some rows are zero. -/
theorem size_encodeDense : (⟨columns, rows, encodeDense bitmap rows⟩ : Group).size =
    baseSize columns.length +
      Dictionary.estimateSize (bitmap.tuples + if bitmap.zeros rows > 0 then 1 else 0)
        columns.length +
      CodeMap.estimateSize rows (bitmap.tuples + if bitmap.zeros rows > 0 then 1 else 0) := by
  have positive : 0 < columns.length := List.length_pos_iff.mpr nonempty
  have holds := Dictionary.holds_ofBitmap valid
  rw [encodeDense_eq]
  by_cases zeros : bitmap.zeros rows > 0
  · have larger := holds.withZeroTuple
    have count := larger.tuples_eq positive
    have taken := larger.size_eq positive
    rw [List.length_append, Dictionary.length_tuplesOf, List.length_singleton] at count taken
    simp only [if_pos zeros, size, CodeMap.size_foldl_set, (CodeMap.fill_eq _ _).2.1,
      CodeMap.size_create, count, taken]
  · have count := holds.tuples_eq positive
    rw [Dictionary.length_tuplesOf] at count
    simp only [if_neg zeros, size, CodeMap.size_foldl_set, CodeMap.size_create, count,
      size_dictionary valid nonempty, Nat.add_zero]

theorem size_ole {blockSize : Nat} {offsets : OffsetStreams}
    (made : OffsetStreams.ofBitmap bitmap blockSize = .ok offsets) :
    (⟨columns, rows, .ole (.ofBitmap bitmap) offsets⟩ : Group).size =
      baseSize columns.length + Dictionary.estimateSize bitmap.tuples columns.length +
        (bitmap.tuples + 1) * 4 +
        total (bitmap.lists.map (OffsetStreams.streamLength blockSize)) * 2 := by
  obtain ⟨positive, _, _, streams, _⟩ := OffsetStreams.ofBitmap_eq_ok valid made
  simp only [size, size_dictionary valid nonempty, streams, Streams.size_ofLists, List.length_map,
    OffsetStreams.length_flatten_encode valid positive, Bitmap.tuples]
  omega

theorem size_rle {runs : RunStreams} (made : RunStreams.ofBitmap bitmap = .ok runs) :
    (⟨columns, rows, .rle (.ofBitmap bitmap) runs⟩ : Group).size =
      baseSize columns.length + Dictionary.estimateSize bitmap.tuples columns.length +
        (bitmap.tuples + 1) * 4 + total (bitmap.lists.map RunStreams.pairCount) * 4 := by
  simp only [size, size_dictionary valid nonempty, (RunStreams.ofBitmap_eq_ok made).1,
    Streams.size_ofLists, List.length_map, RunStreams.length_flatten_words, Bitmap.tuples]
  omega

/-- With the most frequent tuple at its end, a dictionary has one tuple more if some rows are zero.
-/
theorem size_moved {frequent : Nat} {moved : MovedDictionary}
    (most : bitmap.zeros rows ≤ (bitmap.list frequent).length)
    (moving : (Dictionary.ofBitmap bitmap).moveFrequentToLast bitmap rows frequent = .ok moved) :
    moved.dictionary.size = Dictionary.estimateSize
      (bitmap.tuples + if bitmap.zeros rows > 0 then 1 else 0) columns.length := by
  have positive : 0 < columns.length := List.length_pos_iff.mpr nonempty
  obtain ⟨inside, holds⟩ := Dictionary.holds_moveFrequentToLast (Dictionary.holds_ofBitmap valid)
    positive most moving
  rw [holds.size_eq positive, Dictionary.length_movedTuples inside, Dictionary.length_tuplesOf]

theorem size_sparse {body : GroupBody} (h : SparseShape.encode bitmap rows = .ok body) :
    ∃ frequent largest shape, bitmap.largest? = some (frequent, largest) ∧
      SparseShape.choose bitmap.tuples (bitmap.zeros rows) largest = shape ∧
      (⟨columns, rows, body⟩ : Group).size =
        shape.estimateSize rows columns.length bitmap.tuples (bitmap.zeros rows) largest
          (RowIndex.sizeOfRows (shape.explicitRows bitmap rows frequent)) := by
  obtain ⟨frequent, largest, found, encoded⟩ := SparseShape.encode_eq_ok valid h
  obtain ⟨_, longest⟩ := Bitmap.largest?_eq_some found
  obtain ⟨one, few, fewer⟩ := SparseShape.choose_spec bitmap.tuples (bitmap.zeros rows) largest
  refine ⟨frequent, largest, _, found, rfl, ?_⟩
  have listed := valid.offsets_le
  generalize SparseShape.choose bitmap.tuples (bitmap.zeros rows) largest = shape at *
  cases encoded with
  | singleZeros =>
    simp only [size, SparseShape.estimateSize, RowIndex.size_ofRows,
      size_dictionary valid nonempty, one rfl]
    omega
  | single moved moving =>
    obtain ⟨only, less⟩ := few rfl
    simp only [size, SparseShape.estimateSize, RowIndex.size_ofRows,
      size_moved valid nonempty (by omega) moving, only]
    omega
  | zeros codes length _ =>
    have counted : codes.length = rows - bitmap.zeros rows := by
      rw [length, SparseShape.explicitRows, SparseShape.length_covered valid, Bitmap.zeros]
      omega
    simp only [size, SparseShape.estimateSize, RowIndex.size_ofRows, CodeMap.size_ofList, counted,
      size_dictionary valid nonempty]
    omega
  | general moved codes moving length _ =>
    have less := fewer rfl
    have counted : codes.length = rows - largest := by
      rw [length, SparseShape.explicitRows, SparseShape.length_complement
        (valid.increasing_list frequent) fun row member => valid.row_lt member, longest]
    simp only [size, SparseShape.estimateSize, RowIndex.size_ofRows, CodeMap.size_ofList, counted,
      size_moved valid nonempty (show bitmap.zeros rows ≤ _ by omega) moving]
    omega

end Sizes

section Uncompressed

variable {source : Source} {columns : List Nat}

theorem nonZeros_copy (source : Source) (columns : List Nat) : (source.copy columns).nonZeros =
    total ((List.range source.rows).map fun row =>
      (source.tuple columns row).countP (!·.isZero)) := by
  simp only [Block.nonZeros, Source.copy, List.countP_toArray, List.countP_flatMap]
  generalize List.range source.rows = rows
  induction rows with
  | nil => rfl
  | cons row rest ih => simp [ih]

theorem size_uncompressed {bitmap : Bitmap} (valid : source.WellFormed) (nonempty : columns ≠ [])
    (sorted : columns.Pairwise (· < ·)) (inside : ∀ col ∈ columns, col < source.cols)
    (fit : bitmap.WellFormed columns.length source.rows)
    (shown : bitmap.Shows source.rows (source.tuple columns)) {block : Block}
    (made : source.block.selectColumns columns source.transposed = .ok block) :
    (⟨columns, source.rows, .uncompressed block⟩ : Group).size =
      baseSize columns.length + Block.estimateSize source.rows columns.length
        (total (bitmap.lists.zipIdx.map fun entry =>
          (bitmap.tuple entry.2).countP (!·.isZero) * entry.1.length)) := by
  obtain ⟨copy, copied, _, _, _, _, taken⟩ :=
    Block.selectColumns_eq_ok valid nonempty sorted inside
  obtain rfl : copy = block := Except.ok.inj (copied.symm.trans made)
  rw [shown.total_nonZeros fit, ← nonZeros_copy, ← taken]
  rfl

end Uncompressed

end Group

end PackedMatrix
