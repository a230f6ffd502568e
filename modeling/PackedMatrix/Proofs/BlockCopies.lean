import PackedMatrix.Proofs.Grids
import PackedMatrix.Proofs.GroupReads
import PackedMatrix.Proofs.OffsetReads

namespace PackedMatrix

namespace Block

section Copy

variable {source : Source} {columns : List Nat}

theorem size_copy (source : Source) (columns : List Nat) :
    (source.copy columns).size = headerSize + source.rows * columns.length * 8 := by
  simp only [size, Source.copy, List.size_toArray, Source.length_flatMap_tuple]

theorem length_rowLines_copy (source : Source) (columns : List Nat) :
    (source.copy columns).rowLines.flatten.length = (source.copy columns).nonZeros := by
  have same : source.copy columns = Grid.block ⟨_, _, (source.copy columns).cell⟩ :=
    (Source.wellFormed_copy source columns).eq_block rfl
  rw [same, length_flatten_rowLines]
  exact (List.countP_toArray ..).symm

theorem size_toSparse_copy (positive : 0 < columns.length) :
    (source.copy columns).toSparse.size =
      headerSize + ((source.copy columns).nonZeros * 12 + (source.rows + 1) * 8) := by
  have made := toSparse_eq (source.copy columns) rfl
    (Source.length_flatMap_tuple source columns source.rows) positive
  have pointers : (SparseRows.ofEntries (source.copy columns).rowLines).rowPtr.size =
      source.rows + 1 := by
    rw [SparseRows.rowPtr_ofEntries, Segments.size_pointers, length_rowLines]
    rfl
  rw [made]
  simp only [size, SparseRows.size, pointers, SparseRows.size_colIdx_ofEntries,
    SparseRows.size_values_ofEntries, length_rowLines_copy]
  omega

/-- Copying columns succeeds; the copy has their cells and the size of the cheaper layout. -/
theorem selectColumns_eq_ok (valid : source.WellFormed) (nonempty : columns ≠ [])
    (sorted : columns.Pairwise (· < ·)) (inside : ∀ col ∈ columns, col < source.cols) :
    ∃ copy, source.block.selectColumns columns source.transposed = .ok copy ∧ copy.WellFormed ∧
      copy.rows = source.rows ∧ copy.cols = columns.length ∧
      (∀ row place (within : place < columns.length), row < source.rows →
        copy.cell row place = source.cell row columns[place]) ∧
      copy.size = estimateSize source.rows columns.length (source.copy columns).nonZeros := by
  have positive : 0 < columns.length := List.length_pos_iff.mpr nonempty
  have narrow : (source.copy columns).cols ≤ maxIndex :=
    Nat.le_trans (Increasing.length_le sorted inside) (Source.cols_le valid)
  rw [selectColumns_eq valid inside]
  split
  next cheaper =>
    have made := toSparse_eq (source.copy columns) rfl
      (Source.length_flatMap_tuple source columns source.rows) positive
    refine ⟨_, rfl, ?_, ?_, ?_, ?_, ?_⟩
    · rw [made, wellFormed_sparse rfl]
      exact wellFormed_ofEntries_rowLines _ narrow
    · rw [made]
      rfl
    · rw [made]
      rfl
    · intro row place within inRow
      have shown := cell_ofEntries_rowLines narrow
        (show row < (source.copy columns).rows from inRow)
        (show place < (source.copy columns).cols from within)
      rw [made]
      exact shown.trans (Source.cell_copy source columns inRow within)
    · rw [size_toSparse_copy positive, estimateSize, Nat.min_eq_right (Nat.le_of_lt cheaper)]
  next dearer =>
    refine ⟨_, rfl, Source.wellFormed_copy source columns, rfl, rfl, ?_, ?_⟩
    · intro row place within inRow
      exact Source.cell_copy source columns inRow within
    · rw [size_copy, estimateSize, Nat.min_eq_left (Nat.le_of_not_lt dearer)]

end Copy

end Block

namespace Group

theorem shows_empty {columns : List Nat} {rows : Nat} (sorted : columns.Pairwise (· < ·))
    {cell : Nat → Nat → Cell} (zero : ∀ row, row < rows → ∀ col ∈ columns,
      cell row col = Cell.zero) : (⟨columns, rows, .empty⟩ : Group).Shows cell := by
  refine ⟨sorted, ?_, ?_⟩
  · intro row place inside inRow
    rw [zero row inRow _ (List.getElem_mem inside)]
    rfl
  · intro width _
    refine ⟨[], fun _ _ => rfl, ?_⟩
    intro row col inRow _
    refine ⟨fun _ => rfl, ?_⟩
    intro present
    exact (zero row inRow col present).symm

/-- The writes of a copy of columns, column by column. -/
def copyWrites (columns : List Nat) (block : Block) (width : Nat) : List (Nat × Cell) :=
  columns.zipIdx.flatMap fun choice =>
    (line (fun row => block.cell row choice.2) block.rows).map fun entry =>
      (entry.1 * width + choice.1, entry.2)

section Copy

variable {columns : List Nat} {block : Block} {width : Nat}

theorem mem_copyWrites {write : Nat × Cell} :
    write ∈ copyWrites columns block width ↔ ∃ row place, ∃ (h : place < columns.length),
      row < block.rows ∧ write.1 = row * width + columns[place] ∧
        write.2 = block.cell row place ∧ write.2.isZero = false :=
  Block.mem_flatMap_lines (fun choice row => block.cell row choice.2)
    fun row choice => row * width + choice.1

/-- Reading a column of the copy and writing what is not zero are the writes of its line. -/
theorem foldlM_fetch (valid : block.WellFormed) {place : Nat} (inside : place < block.cols)
    (col : Nat) {rows : List Nat} (within : ∀ row ∈ rows, row < block.rows) (buffer : Array Cell) :
    rows.foldlM (fun buffer row => do
      let cell ← block.fetch row place
      if cell.isZero then pure buffer
      else writeCell buffer (row * width + col) cell) buffer =
        ((Source.dropZeros (rows.map fun row => (row, block.cell row place))).map fun entry =>
          (entry.1 * width + col, entry.2)).foldlM
            (fun buffer write => writeCell buffer write.1 write.2) buffer := by
  induction rows generalizing buffer with
  | nil => rfl
  | cons row rest ih =>
    have later := ih fun other member => within other (List.mem_cons_of_mem _ member)
    have read := valid.fetch_eq (within row (by simp)) inside
    rw [List.foldlM_cons, read]
    by_cases zero : (block.cell row place).isZero = true
    · have dropped : Source.dropZeros ((row :: rest).map fun row => (row, block.cell row place)) =
          Source.dropZeros (rest.map fun row => (row, block.cell row place)) := by
        simp [Source.dropZeros, zero]
      rw [dropped, ← later]
      simp only [bind, Except.bind, zero, ↓reduceIte, pure, Except.pure]
    · have kept : Source.dropZeros ((row :: rest).map fun row => (row, block.cell row place)) =
          (row, block.cell row place) ::
            Source.dropZeros (rest.map fun row => (row, block.cell row place)) := by
        simp [Source.dropZeros, zero]
      rw [kept, List.map_cons, List.foldlM_cons]
      simp only [bind, Except.bind, zero, Bool.false_eq_true, ↓reduceIte]
      cases writeCell buffer (row * width + col) (block.cell row place) with
      | error fault => rfl
      | ok next => exact later next

theorem writeBlock_eq (valid : block.WellFormed) (wide : block.cols = columns.length)
    {buffer : Array Cell}
    (bounds : ∀ write ∈ copyWrites columns block width, write.1 < buffer.size) :
    writeBlock columns block width buffer = .ok ((copyWrites columns block width).foldl
      (fun cells write => cells.setIfInBounds write.1 write.2) buffer) := by
  rw [← Writes.foldlM_writeCell bounds, writeBlock, copyWrites, foldlM_flatMap]
  refine foldlM_congr ?_ buffer
  rintro ⟨col, place⟩ chosen before
  have inside := (List.mem_zipIdx' chosen).1
  exact foldlM_fetch valid (by omega) col (fun row => List.mem_range.mp) before

section Shown

variable (within : ∀ col ∈ columns, col < width)

include within

theorem last_copyWrites_of_not_mem {col : Nat} (inCol : col < width) (absent : col ∉ columns)
    (row : Nat) : Writes.last (row * width + col) (copyWrites columns block width) = none := by
  apply Writes.last_eq_none
  intro write member here
  obtain ⟨other, place, bound, _, position, _⟩ := mem_copyWrites.mp member
  obtain ⟨_, equal⟩ := Block.position_inj (within _ (List.getElem_mem bound)) inCol
    (position.symm.trans here)
  exact absent (equal ▸ List.getElem_mem bound)

theorem last_copyWrites (unique : columns.Nodup) {row place : Nat} (inRow : row < block.rows)
    (inside : place < columns.length) :
    (Writes.last (row * width + columns[place]) (copyWrites columns block width)).getD Cell.zero =
      block.cell row place := by
  apply Writes.getD_last
  · intro write member here
    obtain ⟨other, index, bound, _, position, value, _⟩ :=
      mem_copyWrites.mp member
    obtain ⟨rfl, equal⟩ := Block.position_inj (within _ (List.getElem_mem bound))
      (within _ (List.getElem_mem inside)) (position.symm.trans here)
    obtain rfl : index = place := (List.Nodup.getElem_inj_iff unique).mp equal
    exact value
  · by_cases zero : (block.cell row place).isZero = true
    · exact .inr (Cell.isZero_iff.mp zero).symm
    · refine .inl ⟨(row * width + columns[place], block.cell row place), ?_, rfl⟩
      exact mem_copyWrites.mpr
        ⟨row, place, inside, inRow, rfl, rfl, by simpa using zero⟩

end Shown

theorem shows_uncompressed (valid : block.WellFormed) (wide : block.cols = columns.length)
    (sorted : columns.Pairwise (· < ·)) {cell : Nat → Nat → Cell}
    (same : ∀ row place (inside : place < columns.length), row < block.rows →
      block.cell row place = cell row columns[place]) :
    (⟨columns, block.rows, .uncompressed block⟩ : Group).Shows cell := by
  refine ⟨sorted, ?_, ?_⟩
  · intro row place inside inRow
    have inCol : place < block.cols := by rwa [wide]
    have inBlock : row < block.rows := inRow
    rw [← same row place inside inRow]
    simp only [cellAt, if_pos (And.intro inBlock inCol), valid.fetch_eq inBlock inCol]
  · intro width within
    refine ⟨copyWrites columns block width, ?_, ?_⟩
    · intro buffer size
      apply writeBlock_eq valid wide
      intro write member
      obtain ⟨row, place, bound, inRow, position, _⟩ := mem_copyWrites.mp member
      rw [size, position]
      exact Block.position_lt inRow (within _ (List.getElem_mem bound))
    · intro row col inRow inCol
      refine ⟨fun absent => last_copyWrites_of_not_mem within inCol absent row, ?_⟩
      intro present
      obtain ⟨place, bound, rfl⟩ := List.mem_iff_getElem.mp present
      rw [last_copyWrites within (Increasing.nodup sorted) inRow bound]
      exact same row place bound inRow

end Copy

end Group

end PackedMatrix
