import PackedMatrix.Proofs.SourceView
import PackedMatrix.Proofs.ZeroFree

namespace PackedMatrix

/-- A shape and a cell for every place in it. -/
structure Grid where
  rows : Nat
  cols : Nat
  cell : Nat → Nat → Cell

namespace Grid

/-- The cell at a place, if the place lies inside. -/
def get? (grid : Grid) (row col : Nat) : Option Cell :=
  if row < grid.rows ∧ col < grid.cols then some (grid.cell row col) else none

/-- All cells, row by row. -/
def cells (grid : Grid) : List Cell :=
  (List.range grid.rows).flatMap fun row => (List.range grid.cols).map (grid.cell row)

/-- The number of cells that are not zero. -/
def nonZeros (grid : Grid) : Nat := grid.cells.countP (!·.isZero)

/-- The dense block of the cells. -/
def block (grid : Grid) : Block := ⟨grid.rows, grid.cols, .dense grid.cells.toArray⟩

/-- Rows and columns change places. -/
def transpose (grid : Grid) : Grid := ⟨grid.cols, grid.rows, fun row col => grid.cell col row⟩

/-- The matrix that a source shows whose block holds the grid. -/
def seen (grid : Grid) (transposed : Bool) : Grid := if transposed then grid.transpose else grid

/-- The listed columns, in the order of the list and as often as it has them. -/
def select (grid : Grid) (columns : List Nat) : Grid :=
  ⟨grid.rows, columns.length, fun row place => grid.cell row (columns.getD place 0)⟩

theorem length_row (grid : Grid) (row : Nat) :
    ((List.range grid.cols).map (grid.cell row)).length = grid.cols := by simp

theorem size_cells (grid : Grid) : grid.cells.toArray.size = grid.rows * grid.cols :=
  Segments.length_flatMap_range fun row _ => grid.length_row row

theorem getElem?_cells (grid : Grid) {row col : Nat} (inRow : row < grid.rows)
    (inCol : col < grid.cols) : grid.cells[row * grid.cols + col]? = some (grid.cell row col) := by
  rw [cells, Segments.getElem?_flatMap_range (fun row _ => grid.length_row row) inRow inCol]
  simp [inCol]

end Grid

namespace Block

/-- The block stores the grid, without zeros if it is sparse. -/
structure Holds (block : Block) (grid : Grid) : Prop where
  fits : block.WellFormed
  rows : block.rows = grid.rows
  cols : block.cols = grid.cols
  free : ∀ sparse, block.data = .sparse sparse → sparse.ZeroFree
  shows : ∀ row col, row < grid.rows → col < grid.cols → block.cell row col = grid.cell row col

end Block

namespace Grid

variable {grid : Grid}

theorem cell_block {row col : Nat} (inRow : row < grid.rows) (inCol : col < grid.cols) :
    grid.block.cell row col = grid.cell row col := by
  have found := grid.getElem?_cells inRow inCol
  simp [block, Block.cell, Array.getD_eq_getD_getElem?, found]

theorem holds_block (grid : Grid) : grid.block.Holds grid where
  fits := (Block.wellFormed_dense rfl).mpr grid.size_cells
  rows := rfl
  cols := rfl
  free := fun _ data => nomatch data
  shows := fun _ _ inRow inCol => cell_block inRow inCol

theorem toList_denseRow {row : Nat} (inRow : row < grid.rows) :
    (grid.block.denseRow grid.cells.toArray row).toList =
      (List.range grid.cols).map (grid.cell row) :=
  Segments.extract_flatMap_range (fun row _ => grid.length_row row) inRow

end Grid

namespace Block

/-- A dense block without columns becomes rows without entries. -/
theorem toSparse_eq_of_no_columns {block : Block} {cells : Array Cell}
    (data : block.data = .dense cells) (size : cells.size = block.rows * block.cols)
    (none_ : block.cols = 0) :
    block.toSparse = ⟨block.rows, block.cols, .sparse (.ofEntries block.rowLines)⟩ := by
  have empty : cells = #[] := Array.size_eq_zero_iff.mp (by rw [size, none_, Nat.mul_zero])
  have lines : block.rowLines = List.replicate block.rows [] := by
    have blank : ∀ row, line (block.cell row) 0 = [] := fun _ => rfl
    rw [rowLines, none_, List.map_congr_left fun row _ => blank row, List.map_const',
      List.length_range]
  have pointers : (SparseRows.ofEntries block.rowLines).rowPtr =
      #[0] ++ Array.replicate block.rows 0 := by
    have starts : ∀ i ∈ List.range (block.rowLines.length + 1),
        Segments.offset block.rowLines i = 0 := by
      intro i member
      have bound : i ≤ block.rowLines.length := by
        have := List.mem_range.mp member
        omega
      have widths : ∀ list ∈ block.rowLines, list.length = 0 := by
        intro list listed
        rw [lines] at listed
        rw [List.eq_of_mem_replicate listed, List.length_nil]
      rw [Segments.offset_of_width widths bound, Nat.mul_zero]
    rw [SparseRows.rowPtr_ofEntries, Segments.pointers, List.map_congr_left starts, List.map_const',
      List.length_range, length_rowLines, List.replicate_succ]
    simp
  have stored : (SparseRows.ofEntries block.rowLines).colIdx = #[] ∧
      (SparseRows.ofEntries block.rowLines).values = #[] := by
    simp [SparseRows.ofEntries, lines]
  have chunked : chunks (max block.cols 1) cells = [] := by
    rw [none_, empty]
    rfl
  have made : block.toSparse = ⟨block.rows, block.cols,
      .sparse ⟨#[0] ++ Array.replicate block.rows 0, #[], #[]⟩⟩ := by
    simp [toSparse, data, chunked, SparseRows.ofEntries]
  rw [made, ← pointers, ← stored.1, ← stored.2]

/-- A sparse copy has the lines of the rows as entries, whatever the width. -/
theorem toSparse_eq_ofEntries {block : Block} {cells : Array Cell}
    (data : block.data = .dense cells) (size : cells.size = block.rows * block.cols) :
    block.toSparse = ⟨block.rows, block.cols, .sparse (.ofEntries block.rowLines)⟩ := by
  rcases Nat.eq_zero_or_pos block.cols with none_ | wide
  · exact toSparse_eq_of_no_columns data size none_
  · exact toSparse_eq block data size wide

theorem zeroFree_rowLines (block : Block) : (SparseRows.ofEntries block.rowLines).ZeroFree := by
  refine SparseRows.zeroFree_ofEntries fun row member entry stored => ?_
  obtain ⟨_, _, rfl⟩ := List.mem_map.mp member
  exact (Line.mem_iff.mp stored).2.2

theorem rowLines_block (grid : Grid) : grid.block.rowLines =
    (List.range grid.rows).map fun row => line (grid.cell row) grid.cols :=
  List.map_congr_left fun _ member =>
    Line.congr fun _ inside => Grid.cell_block (List.mem_range.mp member) inside

/-- The lines list the cells that are not zero. -/
theorem length_flatten_rowLines (grid : Grid) :
    grid.block.rowLines.flatten.length = grid.nonZeros := by
  have row : ∀ row ∈ List.range grid.rows, (line (grid.cell row) grid.cols).length =
      ((List.range grid.cols).map (grid.cell row)).countP (!·.isZero) := by
    intro row _
    rw [length_line, List.countP_map]
    rfl
  rw [rowLines_block, Grid.nonZeros, Grid.cells, ← List.flatMap_def, List.length_flatMap,
    List.countP_flatMap]
  exact congrArg List.sum (List.map_congr_left row)

namespace Holds

variable {block other : Block} {grid : Grid}

theorem eq_block (holds : block.Holds grid) (dense : block.isSparse = false) :
    block = grid.block := by
  obtain ⟨rows, cols, data⟩ := block
  obtain ⟨fits, rfl, rfl, _, shows⟩ := holds
  cases data with
  | sparse sparse => cases dense
  | dense cells =>
    have size : cells.size = grid.rows * grid.cols := (wellFormed_dense rfl).mp fits
    have same : cells = grid.cells.toArray := by
      refine Array.ext (by rw [size, Grid.size_cells]) fun position first second => ?_
      obtain ⟨row, col, inRow, inCol, rfl⟩ := exists_position (show _ < _ * _ from size ▸ first)
      have shown := shows row col inRow inCol
      simp only [cell, Array.getD_eq_getD_getElem?, Array.getElem?_eq_getElem first,
        Option.getD_some] at shown
      have found := grid.getElem?_cells inRow inCol
      rw [← List.getElem?_toArray, Array.getElem?_eq_getElem second, Option.some_inj] at found
      rw [shown, found]
    rw [same]
    rfl

theorem toSparse_block (grid : Grid) (narrow : grid.cols ≤ maxIndex) :
    grid.block.toSparse.Holds grid := by
  rw [toSparse_eq_ofEntries rfl grid.size_cells]
  refine ⟨?_, rfl, rfl, ?_, ?_⟩
  · rw [wellFormed_sparse rfl]
    exact wellFormed_ofEntries_rowLines grid.block narrow
  · rintro _ ⟨⟩
    exact zeroFree_rowLines grid.block
  · intro row col inRow inCol
    have shown : (SparseRows.ofEntries grid.block.rowLines).cell row col =
        grid.block.cell row col := cell_ofEntries_rowLines narrow inRow inCol
    exact shown.trans (Grid.cell_block inRow inCol)

/-- Two blocks in one layout that hold the same grid are the same. -/
theorem eq_of_isSparse (holds : block.Holds grid) (holds' : other.Holds grid)
    (narrow : grid.cols ≤ maxIndex) (layout : block.isSparse = other.isSparse) :
    block = other := by
  cases dense : block.isSparse with
  | false => rw [holds.eq_block dense, holds'.eq_block (layout ▸ dense)]
  | true =>
    obtain ⟨rows, cols, data⟩ := block
    obtain ⟨rows', cols', data'⟩ := other
    obtain ⟨fits, rfl, rfl, free, shows⟩ := holds
    obtain ⟨fits', rfl, rfl, free', shows'⟩ := holds'
    cases data with
    | dense cells => cases dense
    | sparse sparse =>
      cases data' with
      | dense cells => cases layout
      | sparse stored =>
        have same : sparse = stored :=
          SparseRows.WellFormed.eq_of_cells fits fits' narrow (free _ rfl) (free' _ rfl)
            fun row col inRow inCol =>
              (shows row col inRow inCol).trans (shows' row col inRow inCol).symm
        rw [same]

theorem eq_toSparse (holds : block.Holds grid) (narrow : grid.cols ≤ maxIndex)
    (sparse : block.isSparse = true) : block = grid.block.toSparse :=
  holds.eq_of_isSparse (toSparse_block grid narrow) narrow sparse

theorem get?_eq (holds : block.Holds grid) (row col : Nat) :
    block.get? row col = grid.get? row col := by
  rw [get?, Grid.get?, holds.rows, holds.cols]
  by_cases inside : row < grid.rows ∧ col < grid.cols
  · rw [if_pos inside, if_pos inside, holds.shows row col inside.1 inside.2]
  · rw [if_neg inside, if_neg inside]

theorem nonZeros_eq (holds : block.Holds grid) (narrow : grid.cols ≤ maxIndex) :
    block.nonZeros = grid.nonZeros := by
  cases layout : block.isSparse with
  | false =>
    rw [holds.eq_block layout]
    exact List.countP_toArray ..
  | true =>
    rw [holds.eq_toSparse narrow layout, toSparse_eq_ofEntries rfl grid.size_cells]
    exact (SparseRows.size_values_ofEntries _).trans (length_flatten_rowLines grid)

theorem isRowEmpty_iff (holds : block.Holds grid) (narrow : grid.cols ≤ maxIndex) {row : Nat}
    (inRow : row < grid.rows) : block.isRowEmpty row = true ↔
      ∀ col, col < grid.cols → grid.cell row col = Cell.zero := by
  obtain ⟨rows, cols, data⟩ := block
  cases data with
  | dense cells =>
    rw [holds.eq_block rfl]
    change (grid.block.denseRow grid.cells.toArray row).all Cell.isZero = true ↔ _
    rw [← Array.all_toList, Grid.toList_denseRow inRow]
    simp [Cell.isZero_iff]
  | sparse sparse =>
    obtain ⟨fits, rfl, rfl, free, shows⟩ := holds
    have valid : sparse.WellFormed grid.rows grid.cols := fits
    have stored := valid.entries_eq_line narrow (free sparse rfl) inRow
    have shown : line (sparse.cell row) grid.cols = line (grid.cell row) grid.cols :=
      Line.congr fun col inCol => shows row col inRow inCol
    simp only [isRowEmpty]
    rw [← valid.map_fst_entries inRow, stored, shown, List.isEmpty_iff, List.map_eq_nil_iff,
      Line.eq_nil_iff]

end Holds

/-- A dense block is made of the cells that it shows. -/
theorem WellFormed.eq_block {block : Block} (valid : block.WellFormed)
    (dense : block.isSparse = false) : block = Grid.block ⟨block.rows, block.cols, block.cell⟩ := by
  refine Holds.eq_block ⟨valid, rfl, rfl, fun sparse data => ?_, fun _ _ _ _ => rfl⟩ dense
  rw [isSparse, data] at dense
  cases dense

/-- The writes that put stored cells into a row-by-row buffer. -/
def storedWrites (rows width : Nat) (sparse : SparseRows) : List (Nat × Cell) :=
  (List.range rows).flatMap fun row => (sparse.entries row).map fun entry =>
    (row * width + entry.1, entry.2)

theorem mem_storedWrites {rows width : Nat} {sparse : SparseRows} {write : Nat × Cell} :
    write ∈ storedWrites rows width sparse ↔ ∃ row, row < rows ∧ ∃ entry ∈ sparse.entries row,
      (row * width + entry.1, entry.2) = write := by
  simp [storedWrites]

theorem toDense_eq_foldl {block : Block} {sparse : SparseRows}
    (data : block.data = .sparse sparse) :
    block.toDense = ⟨block.rows, block.cols,
      .dense ((storedWrites block.rows block.cols sparse).foldl
        (fun cells write => cells.setIfInBounds write.1 write.2)
        (Array.replicate (block.rows * block.cols) Cell.zero))⟩ := by
  simp only [toDense, data, storedWrites, List.foldl_flatMap, List.foldl_map]
  rfl

/-- Written out, stored cells are found at their places, and zeros at all others. -/
theorem getD_last_storedWrites {rows cols : Nat} {sparse : SparseRows}
    (valid : sparse.WellFormed rows cols) (narrow : cols ≤ maxIndex) {row col : Nat}
    (inRow : row < rows) (inCol : col < cols) :
    (Writes.last (row * cols + col) (storedWrites rows cols sparse)).getD Cell.zero =
      sparse.cell row col := by
  apply Writes.getD_last
  · intro write member here
    obtain ⟨other, bound, entry, stored, rfl⟩ := mem_storedWrites.mp member
    obtain ⟨rfl, rfl⟩ := position_inj (valid.col_lt_of_mem bound stored) inCol here
    exact (valid.cell_of_mem narrow bound stored).symm
  · rcases valid.mem_entries_or_zero narrow inRow (show col ≤ maxIndex by omega) with
      stored | ⟨_, zero⟩
    · exact .inl ⟨_, mem_storedWrites.mpr ⟨row, inRow, _, stored, rfl⟩, rfl⟩
    · exact .inr zero.symm

namespace Holds

variable {block : Block} {grid : Grid}

theorem toDense_eq (holds : block.Holds grid) (narrow : grid.cols ≤ maxIndex) :
    block.toDense = grid.block := by
  cases data : block.data with
  | dense cells =>
    rw [toDense, data]
    exact holds.eq_block (by rw [isSparse, data])
  | sparse sparse =>
    have valid := (wellFormed_sparse data).mp holds.fits
    rw [toDense_eq_foldl data, holds.rows, holds.cols]
    rw [holds.rows, holds.cols] at valid
    refine eq_block ⟨?_, rfl, rfl, (fun _ other => nomatch other), ?_⟩ rfl
    · rw [wellFormed_dense rfl, Writes.size_foldl, Array.size_replicate]
    · intro row col inRow inCol
      have shown := holds.shows row col inRow inCol
      simp only [cell, data] at shown
      rw [← shown, ← getD_last_storedWrites valid narrow inRow inCol]
      simp only [cell, Array.getD_eq_getD_getElem?, Writes.getElem?_foldl]
      simp [position_lt inRow inCol]

theorem toDense (holds : block.Holds grid) (narrow : grid.cols ≤ maxIndex) :
    block.toDense.Holds grid := by
  rw [holds.toDense_eq narrow]
  exact grid.holds_block

theorem toSparse (holds : block.Holds grid) (narrow : grid.cols ≤ maxIndex) :
    block.toSparse.Holds grid := by
  cases data : block.data with
  | dense cells =>
    rw [holds.eq_block (by rw [isSparse, data])]
    exact toSparse_block grid narrow
  | sparse sparse => rwa [Block.toSparse, data]

theorem transpose (holds : block.Holds grid) (short : grid.rows ≤ maxIndex)
    (narrow : grid.cols ≤ maxIndex) : block.transpose.Holds grid.transpose := by
  obtain ⟨rows, cols, data⟩ := block
  obtain ⟨fits, rfl, rfl, free, shows⟩ := holds
  have shape := shape_transpose ⟨grid.rows, grid.cols, data⟩
  refine ⟨wellFormed_transpose fits short, shape.1, shape.2, ?_, ?_⟩
  · intro swapped same
    cases data with
    | dense cells => cases same
    | sparse sparse =>
      have valid : sparse.WellFormed grid.rows grid.cols := fits
      cases same
      rw [SparseRows.swapSparse_eq valid]
      refine SparseRows.zeroFree_ofEntries fun column listed entry member => ?_
      obtain ⟨col, _, rfl⟩ := List.mem_map.mp listed
      have stored := (SparseRows.mem_columnEntries.mp member).2
      exact SparseRows.zeroFree_iff.mp (free sparse rfl) _
        (SparseRows.mem_values_of_mem_entries stored)
  · intro row col inRow inCol
    exact (cell_transpose fits short narrow inCol inRow).trans (shows col row inCol inRow)

/-- Copying columns succeeds, and the copy holds them as the source shows them. -/
theorem exists_selectColumns (holds : block.Holds grid) (short : grid.rows ≤ maxIndex)
    (narrow : grid.cols ≤ maxIndex) {columns : List Nat} {transposed : Bool}
    (few : columns.length ≤ maxIndex)
    (inside : ∀ col ∈ columns, col < (grid.seen transposed).cols) :
    ∃ copy, block.selectColumns columns transposed = .ok copy ∧
      copy.Holds ((grid.seen transposed).select columns) := by
  obtain ⟨rows, cols, data⟩ := block
  obtain ⟨fits, rfl, rfl, free, shows⟩ := holds
  have valid : Source.WellFormed ⟨⟨grid.rows, grid.cols, data⟩, transposed⟩ := ⟨fits, short, narrow⟩
  have shape : Source.rows ⟨⟨grid.rows, grid.cols, data⟩, transposed⟩ =
        (grid.seen transposed).rows ∧
      Source.cols ⟨⟨grid.rows, grid.cols, data⟩, transposed⟩ = (grid.seen transposed).cols := by
    cases transposed <;> exact ⟨rfl, rfl⟩
  have shown : ∀ row col, row < (grid.seen transposed).rows → col < (grid.seen transposed).cols →
      Source.cell ⟨⟨grid.rows, grid.cols, data⟩, transposed⟩ row col =
        (grid.seen transposed).cell row col := by
    cases transposed with
    | false => exact shows
    | true => exact fun row col inRow inCol => shows col row inCol inRow
  have copied : (Source.copy ⟨⟨grid.rows, grid.cols, data⟩, transposed⟩ columns).Holds
      ((grid.seen transposed).select columns) := by
    refine ⟨Source.wellFormed_copy _ _, shape.1, rfl, (fun _ other => nomatch other), ?_⟩
    intro row place inRow within
    have inColumns : place < columns.length := within
    rw [Source.cell_copy _ _ (shape.1 ▸ inRow) inColumns,
      shown row _ inRow (inside _ (List.getElem_mem inColumns))]
    simp [Grid.select, inColumns]
  rw [← shape.2] at inside
  have made := selectColumns_eq valid inside
  split at made
  next => exact ⟨_, made, copied.toSparse few⟩
  next => exact ⟨_, made, copied⟩

end Holds

end Block

end PackedMatrix
