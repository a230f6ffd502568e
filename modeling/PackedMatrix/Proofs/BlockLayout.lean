import PackedMatrix.Proofs.SparseRows
import PackedMatrix.Proofs.Steps
import PackedMatrix.Source

namespace PackedMatrix

/-- The cells of a line that are not zero, with their places. -/
def line (cells : Nat → Cell) (length : Nat) : List (Nat × Cell) :=
  Source.dropZeros ((List.range length).map fun place => (place, cells place))

theorem length_line (cells : Nat → Cell) (length : Nat) :
    (line cells length).length = (List.range length).countP fun place => !(cells place).isZero := by
  rw [line, Source.dropZeros, List.filter_map, List.length_map, ← List.countP_eq_length_filter]
  rfl

namespace Line

variable {cells : Nat → Cell} {length : Nat}

theorem mem_iff {entry : Nat × Cell} :
    entry ∈ line cells length ↔
      entry.1 < length ∧ entry.2 = cells entry.1 ∧ entry.2.isZero = false := by
  simp only [line, Source.dropZeros, List.mem_filter, List.mem_map, List.mem_range,
    Bool.not_eq_true']
  constructor
  · rintro ⟨⟨place, bound, rfl⟩, nonzero⟩
    exact ⟨bound, rfl, nonzero⟩
  · rintro ⟨bound, same, nonzero⟩
    exact ⟨⟨entry.1, bound, by rw [← same]⟩, nonzero⟩

theorem increasing_keys (cells : Nat → Cell) (length : Nat) :
    ((line cells length).map Prod.fst).Pairwise (· < ·) := by
  have all : ((List.range length).map fun place => (place, cells place)).Pairwise
      (fun a b => a.1 < b.1) := by
    rw [List.pairwise_map]
    exact List.pairwise_lt_range
  rw [List.pairwise_map]
  exact all.sublist List.filter_sublist

theorem congr {other : Nat → Cell} (same : ∀ place, place < length → cells place = other place) :
    line cells length = line other length := by
  have listed : (List.range length).map (fun place => (place, cells place)) =
      (List.range length).map fun place => (place, other place) := by
    apply List.map_congr_left
    intro place member
    rw [same place (List.mem_range.mp member)]
  rw [line, line, listed]

theorem eq_nil_iff :
    line cells length = [] ↔ ∀ place, place < length → cells place = Cell.zero := by
  simp [line, Source.dropZeros, Cell.isZero_iff]

/-- Entries with increasing places that are the cells of a line, zeros dropped, are the line. -/
theorem eq_of_mem_iff {entries : List (Nat × Cell)}
    (sorted : (entries.map Prod.fst).Pairwise (· < ·))
    (same : ∀ entry, entry ∈ entries ↔
      entry.1 < length ∧ entry.2 = cells entry.1 ∧ entry.2.isZero = false) :
    entries = line cells length :=
  Increasing.eq_of_mem_iff_of_keys sorted (increasing_keys cells length) fun entry => by
    rw [same entry, mem_iff]

end Line

namespace SparseRows

variable {sparse : SparseRows} {rows cols : Nat}

theorem all_le_iff (count : sparse.rowPtr.size = rows + 1) :
    (sparse.rowPtr.toList.zip (sparse.rowPtr.toList.drop 1)).all
        (fun pair => decide (pair.1 ≤ pair.2)) = true ↔
      ∀ row < rows, sparse.rowStart row ≤ sparse.rowEnd row := by
  have pairs : sparse.rowPtr.toList.zip (sparse.rowPtr.toList.drop 1) =
      (List.range rows).map fun row => (sparse.rowStart row, sparse.rowEnd row) := by
    refine List.ext_getElem ?_ fun row first second => ?_
    · simp only [List.length_zip, List.length_drop, Array.length_toList, List.length_map,
        List.length_range]
      omega
    · have inRow : row < rows := by simpa using second
      simp [rowStart, rowEnd, Array.getD_eq_getD_getElem?,
        show row < sparse.rowPtr.size by omega, show row + 1 < sparse.rowPtr.size by omega]
  rw [pairs, List.all_map, List.all_eq_true]
  simp

/-- No row is found unfit exactly if the columns of every row increase inside. -/
theorem find?_not_rowFits_iff :
    (List.range rows).find? (fun row => !sparse.rowFits cols row) = none ↔
      ∀ row < rows, (sparse.rowColumns row).Pairwise (· < ·) ∧
        ∀ col ∈ sparse.rowColumns row, col < cols := by
  simp [rowFits]

end SparseRows

namespace Block

/-- The storage matches the shape, and sparse rows are well-formed. -/
def WellFormed (block : Block) : Prop :=
  match block.data with
  | .dense cells => cells.size = block.rows * block.cols
  | .sparse sparse => sparse.WellFormed block.rows block.cols

theorem wellFormed_dense {block : Block} {cells : Array Cell} (data : block.data = .dense cells) :
    block.WellFormed ↔ cells.size = block.rows * block.cols := by
  rw [WellFormed, data]

theorem wellFormed_sparse {block : Block} {sparse : SparseRows}
    (data : block.data = .sparse sparse) :
    block.WellFormed ↔ sparse.WellFormed block.rows block.cols := by
  rw [WellFormed, data]

/-- A block passes the check exactly if it is well-formed. -/
theorem validate_eq_ok_iff {block : Block} : block.validate = .ok () ↔ block.WellFormed := by
  cases data : block.data with
  | dense cells =>
    rw [wellFormed_dense data]
    simp only [validate, data]
    by_cases size : cells.size = block.rows * block.cols
    · exact iff_of_true (if_pos size) size
    · rw [if_neg size]
      exact iff_of_false (fun failed => nomatch failed) size
  | sparse sparse =>
    rw [wellFormed_sparse data]
    simp only [validate, data, guard_eq_ok_iff, not_or, not_not, Bool.not_eq_true,
      Bool.not_eq_false']
    constructor
    · rintro ⟨⟨count, start⟩, order, ⟨columnEnd, valueEnd⟩, h⟩
      split at h
      next => cases h
      next fits =>
        have fit := SparseRows.find?_not_rowFits_iff.mp fits
        refine ⟨count, ?_, (SparseRows.all_le_iff count).mp order, columnEnd, valueEnd,
          fun row inRow => (fit row inRow).1, fun row inRow => (fit row inRow).2⟩
        rw [SparseRows.rowStart, Array.getD_eq_getD_getElem?, start, Option.getD_some]
    · intro fit
      have count := fit.pointerCount
      have start : sparse.rowPtr[0]? = some 0 := by
        have first := fit.first
        have some_ : 0 < sparse.rowPtr.size := by omega
        simpa [SparseRows.rowStart, Array.getD_eq_getD_getElem?, some_] using first
      refine ⟨⟨count, start⟩, (SparseRows.all_le_iff count).mpr fit.ordered,
        ⟨fit.columnEnd, fit.valueEnd⟩, ?_⟩
      rw [SparseRows.find?_not_rowFits_iff.mpr fun row inRow =>
        ⟨fit.increasing row inRow, fit.inside row inRow⟩]

theorem wellFormed_of_validate {block : Block} (h : block.validate = .ok ()) : block.WellFormed :=
  validate_eq_ok_iff.mp h

theorem WellFormed.validate {block : Block} (valid : block.WellFormed) :
    block.validate = .ok () :=
  validate_eq_ok_iff.mpr valid

theorem position_lt {rows cols row col : Nat} (inRow : row < rows) (inCol : col < cols) :
    row * cols + col < rows * cols := by
  have : (row + 1) * cols ≤ rows * cols := Nat.mul_le_mul_right cols inRow
  rw [Nat.succ_mul] at this
  omega

theorem position_inj {width row row' place place' : Nat} (inside : place < width)
    (inside' : place' < width) (same : row * width + place = row' * width + place') :
    row = row' ∧ place = place' := by
  have rows : (row * width + place) / width = (row' * width + place') / width := by rw [same]
  have wide : 0 < width := by omega
  rw [Nat.mul_comm, Nat.mul_add_div wide, Nat.div_eq_of_lt inside, Nat.mul_comm,
    Nat.mul_add_div wide, Nat.div_eq_of_lt inside', Nat.add_zero, Nat.add_zero] at rows
  subst rows
  exact ⟨rfl, by omega⟩

theorem get?_eq {block : Block} {row col : Nat} (inRow : row < block.rows)
    (inCol : col < block.cols) : block.get? row col = some (block.cell row col) := by
  simp [get?, inRow, inCol]

theorem WellFormed.fetch_eq {block : Block} (valid : block.WellFormed) {row col : Nat}
    (inRow : row < block.rows) (inCol : col < block.cols) :
    block.fetch row col = .ok (block.cell row col) := by
  cases data : block.data with
  | dense cells =>
    have size := (wellFormed_dense data).mp valid
    have within : row * block.cols + col < cells.size := by
      rw [size]
      exact position_lt inRow inCol
    simp [fetch, cell, data, Fault.found, Array.getD_eq_getD_getElem?, within]
  | sparse sparse =>
    have read := ((wellFormed_sparse data).mp valid).fetch_eq inRow col
    simpa [fetch, cell, data] using read

theorem nonZeroEntries_eq (cells : Array Cell) :
    nonZeroEntries cells = line (fun place => cells.getD place Cell.zero) cells.size := by
  have listed : cells.toList.zipIdx.map (fun entry => (entry.2, entry.1)) =
      (List.range cells.size).map fun place => (place, cells.getD place Cell.zero) := by
    refine List.ext_getElem (by simp) ?_
    intro place first second
    have bound : place < cells.size := by simpa using first
    simp [Array.getD_eq_getD_getElem?, bound]
  rw [nonZeroEntries, line, Source.dropZeros, ← listed, List.filter_map]
  rfl

theorem nonZeroEntries_denseRow (block : Block) {cells : Array Cell} {row : Nat}
    (size : cells.size = block.rows * block.cols) (bound : row < block.rows) :
    nonZeroEntries (block.denseRow cells row) =
      line (fun col => cells.getD (row * block.cols + col) Cell.zero) block.cols := by
  have upTo : (row + 1) * block.cols ≤ cells.size := by
    rw [size]
    exact Nat.mul_le_mul_right _ bound
  have width : (block.denseRow cells row).size = block.cols := by
    rw [Nat.succ_mul] at upTo
    simp only [denseRow, Array.size_extract, Nat.succ_mul]
    omega
  rw [nonZeroEntries_eq, width]
  apply Line.congr
  intro col inside
  rw [Nat.succ_mul] at upTo
  have whole : row * block.cols + col < cells.size := by omega
  have part : col < min ((row + 1) * block.cols) cells.size - row * block.cols := by
    rw [Nat.succ_mul]
    omega
  simp [denseRow, Array.getD_eq_getD_getElem?, whole, part]

/-- The lines of all rows. -/
def rowLines (block : Block) : List (List (Nat × Cell)) :=
  (List.range block.rows).map fun row => line (block.cell row) block.cols

theorem length_rowLines (block : Block) : block.rowLines.length = block.rows := by
  simp [rowLines]

section ToSparse

variable {block : Block} {cells : Array Cell}

/-- The entries of a sparse copy are the lines of the dense rows. -/
theorem toSparse_eq (block : Block) (data : block.data = .dense cells)
    (size : cells.size = block.rows * block.cols) (wide : 0 < block.cols) :
    block.toSparse = ⟨block.rows, block.cols, .sparse (.ofEntries block.rowLines)⟩ := by
  have count : (cells.size + block.cols - 1) / block.cols = block.rows := by
    rw [size, Nat.add_sub_assoc wide, Nat.mul_comm, Nat.mul_add_div wide,
      Nat.div_eq_of_lt (by omega), Nat.add_zero]
  have rows : (chunks (max block.cols 1) cells).take block.rows =
      (List.range block.rows).map (block.denseRow cells) := by
    rw [Nat.max_eq_left wide, chunks, count, List.take_of_length_le (by simp)]
    rfl
  have lines : ((chunks (max block.cols 1) cells).take block.rows).map nonZeroEntries =
      block.rowLines := by
    rw [rows, List.map_map]
    apply List.map_congr_left
    intro row member
    have shown := nonZeroEntries_denseRow block size (List.mem_range.mp member)
    rw [Function.comp_apply, shown]
    apply Line.congr
    intro col inside
    simp [cell, data]
  have full : (SparseRows.ofEntries block.rowLines).rowPtr.size = block.rows + 1 := by
    rw [SparseRows.rowPtr_ofEntries, Segments.size_pointers, length_rowLines]
  simp only [toSparse, data, lines, full, Nat.sub_self]
  simp

theorem wellFormed_ofEntries_rowLines (block : Block) (narrow : block.cols ≤ maxIndex) :
    (SparseRows.ofEntries block.rowLines).WellFormed block.rows block.cols := by
  rw [← length_rowLines block]
  refine SparseRows.wellFormed_ofEntries _ narrow ?_ ?_
  · intro row member
    obtain ⟨place, _, rfl⟩ := List.mem_map.mp member
    exact Line.increasing_keys _ _
  · intro row member entry stored
    obtain ⟨place, _, rfl⟩ := List.mem_map.mp member
    exact (Line.mem_iff.mp stored).1

theorem entries_ofEntries_rowLines (narrow : block.cols ≤ maxIndex) {row : Nat}
    (inRow : row < block.rows) :
    (SparseRows.ofEntries block.rowLines).entries row = line (block.cell row) block.cols := by
  have bound : row < block.rowLines.length := by rwa [length_rowLines]
  have here : block.rowLines[row] = line (block.cell row) block.cols := by simp [rowLines]
  rw [SparseRows.entries_ofEntries bound, here]
  intro entry member
  rw [here] at member
  have inside := (Line.mem_iff.mp member).1
  rw [maxIndex] at narrow
  rw [UInt32.size]
  omega

theorem cell_ofEntries_rowLines (narrow : block.cols ≤ maxIndex) {row col : Nat}
    (inRow : row < block.rows) (inCol : col < block.cols) :
    (SparseRows.ofEntries block.rowLines).cell row col = block.cell row col := by
  have valid := wellFormed_ofEntries_rowLines block narrow
  have stored := entries_ofEntries_rowLines narrow inRow
  by_cases zero : (block.cell row col).isZero = true
  · have absent : col ∉ (SparseRows.ofEntries block.rowLines).rowColumns row := by
      rw [← valid.map_fst_entries inRow, stored]
      intro member
      obtain ⟨entry, listed, rfl⟩ := List.mem_map.mp member
      obtain ⟨_, same, nonzero⟩ := Line.mem_iff.mp listed
      rw [same, zero] at nonzero
      simp at nonzero
    rw [Cell.isZero_iff.mp zero]
    exact valid.cell_of_not_mem inRow (by omega) absent
  · have member : (col, block.cell row col) ∈
        (SparseRows.ofEntries block.rowLines).entries row := by
      rw [stored]
      exact Line.mem_iff.mpr ⟨inCol, rfl, by simpa using zero⟩
    exact valid.cell_of_mem narrow inRow member

end ToSparse

end Block

end PackedMatrix
