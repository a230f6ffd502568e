import PackedMatrix.Proofs.Transposition
import PackedMatrix.Proofs.Writes

namespace PackedMatrix

namespace Source

/-- The block is well-formed and its rows and columns can be numbered in 32 bits. -/
structure WellFormed (source : Source) : Prop where
  block : source.block.WellFormed
  short : source.block.rows ≤ maxIndex
  narrow : source.block.cols ≤ maxIndex

/-- The cells of chosen columns in one row. -/
def tuple (source : Source) (columns : List Nat) (row : Nat) : List Cell :=
  columns.map (source.cell row)

@[simp] theorem length_tuple (source : Source) (columns : List Nat) (row : Nat) :
    (source.tuple columns row).length = columns.length := by
  simp [tuple]

variable {source : Source}

theorem rows_le (valid : source.WellFormed) : source.rows ≤ maxIndex := by
  unfold rows
  split
  next => exact valid.narrow
  next => exact valid.short

theorem cols_le (valid : source.WellFormed) : source.cols ≤ maxIndex := by
  unfold cols
  split
  next => exact valid.short
  next => exact valid.narrow

theorem column_eq (valid : source.WellFormed) {col : Nat} (inside : col < source.cols) :
    source.column col = line (fun row => source.cell row col) source.rows := by
  obtain ⟨block, transposed⟩ := source
  obtain ⟨fit, short, narrow⟩ := valid
  change block.rows ≤ maxIndex at short
  change block.cols ≤ maxIndex at narrow
  cases data : block.data with
  | dense cells =>
    cases transposed with
    | false => simp [column, data, line, rows, cell, Block.cell]
    | true =>
      have size := (Block.wellFormed_dense data).mp fit
      have shown := Block.nonZeroEntries_denseRow _ size (show col < block.rows from inside)
      simpa [column, data, rows, cell, Block.cell] using shown
  | sparse sparse =>
    cases transposed with
    | false => simp [column, data, line, rows, cell, Block.cell]
    | true =>
      have stored := (Block.wellFormed_sparse data).mp fit
      have bound : col < block.rows := inside
      have sorted := stored.increasing_entries bound
      simp only [column, data]
      apply Line.eq_of_mem_iff
      · rw [List.pairwise_map] at sorted ⊢
        exact sorted.sublist List.filter_sublist
      · intro entry
        simp only [dropZeros, List.mem_filter, Bool.not_eq_true', rows, cell, Block.cell, data,
          ↓reduceIte]
        constructor
        · rintro ⟨member, nonzero⟩
          refine ⟨stored.col_lt_of_mem bound member, ?_, nonzero⟩
          exact (stored.cell_of_mem narrow bound member).symm
        · rintro ⟨within, same, nonzero⟩
          refine ⟨?_, nonzero⟩
          rw [same] at nonzero
          have member := stored.mem_entries_of_nonzero narrow bound (by omega) nonzero
          rw [← same] at member
          exact member

/-- A dense copy of chosen columns. -/
def copy (source : Source) (columns : List Nat) : Block where
  rows := source.rows
  cols := columns.length
  data := .dense ((List.range source.rows).flatMap (source.tuple columns)).toArray

theorem length_flatMap_tuple (source : Source) (columns : List Nat) (rows : Nat) :
    ((List.range rows).flatMap (source.tuple columns)).length = rows * columns.length :=
  Segments.length_flatMap_range fun row _ => length_tuple source columns row

theorem getElem?_flatMap_tuple (source : Source) (columns : List Nat) {rows row place : Nat}
    (inRow : row < rows) (inTuple : place < columns.length) :
    ((List.range rows).flatMap (source.tuple columns))[row * columns.length + place]? =
      some (source.cell row columns[place]) := by
  rw [Segments.getElem?_flatMap_range (fun row _ => length_tuple source columns row) inRow inTuple]
  simp [tuple, inTuple]

theorem wellFormed_copy (source : Source) (columns : List Nat) :
    (source.copy columns).WellFormed := by
  rw [Block.wellFormed_dense rfl, List.size_toArray]
  exact length_flatMap_tuple source columns source.rows

theorem cell_copy (source : Source) (columns : List Nat) {row place : Nat}
    (inRow : row < source.rows) (inTuple : place < columns.length) :
    (source.copy columns).cell row place = source.cell row columns[place] := by
  have found := getElem?_flatMap_tuple source columns inRow inTuple
  simp [copy, Block.cell, Array.getD_eq_getD_getElem?, found]

end Source

namespace Block

/-- The writes that copy chosen columns into a row-by-row buffer. -/
def columnWrites (source : Source) (columns : List Nat) : List (Nat × Cell) :=
  columns.zipIdx.flatMap fun choice => (source.column choice.1).map fun entry =>
    (entry.1 * columns.length + choice.2, entry.2)

/-- The writes of chosen columns, each of them a line, are the cells that are not zero. -/
theorem mem_flatMap_lines (cells : Nat × Nat → Nat → Cell) (position : Nat → Nat × Nat → Nat)
    {columns : List Nat} {rows : Nat} {write : Nat × Cell} :
    (write ∈ columns.zipIdx.flatMap fun choice =>
        (line (cells choice) rows).map fun entry => (position entry.1 choice, entry.2)) ↔
      ∃ row place, ∃ (h : place < columns.length), row < rows ∧
        write.1 = position row (columns[place], place) ∧
        write.2 = cells (columns[place], place) row ∧ write.2.isZero = false := by
  simp only [List.mem_flatMap, List.mem_map]
  constructor
  · rintro ⟨⟨col, place⟩, chosen, entry, listed, rfl⟩
    obtain ⟨bound, here⟩ := List.mem_zipIdx' chosen
    have named : (col, place) = (columns[place], place) := Prod.ext here rfl
    obtain ⟨inRow, same, nonzero⟩ := Line.mem_iff.mp listed
    rw [named] at same
    exact ⟨entry.1, place, bound, inRow, by rw [named], same, nonzero⟩
  · rintro ⟨row, place, bound, inRow, written, same, nonzero⟩
    refine ⟨(columns[place], place), List.mem_zipIdx_iff_getElem?.mpr (by simp [bound]),
      (row, write.2), ?_, by rw [← written]⟩
    exact Line.mem_iff.mpr ⟨inRow, same, nonzero⟩

theorem mem_columnWrites {source : Source} (valid : source.WellFormed) {columns : List Nat}
    (inside : ∀ col ∈ columns, col < source.cols) {write : Nat × Cell} :
    write ∈ columnWrites source columns ↔ ∃ row place, ∃ (h : place < columns.length),
      row < source.rows ∧ write.1 = row * columns.length + place ∧
        write.2 = source.cell row columns[place] ∧ write.2.isZero = false := by
  have lines : columnWrites source columns = columns.zipIdx.flatMap fun choice =>
      (line (fun row => source.cell row choice.1) source.rows).map fun entry =>
        (entry.1 * columns.length + choice.2, entry.2) := by
    refine List.flatMap_congr fun choice chosen => ?_
    rw [Source.column_eq valid (inside _ (List.fst_mem_of_mem_zipIdx chosen))]
  rw [lines]
  exact mem_flatMap_lines (fun choice row => source.cell row choice.1)
    fun row choice => row * columns.length + choice.2

theorem exists_position {rows width position : Nat} (within : position < rows * width) :
    ∃ row place, row < rows ∧ place < width ∧ position = row * width + place := by
  have wide : 0 < width := Nat.pos_of_mul_pos_left (Nat.zero_lt_of_lt within)
  refine ⟨position / width, position % width, ?_, Nat.mod_lt _ wide, ?_⟩
  · exact (Nat.div_lt_iff_lt_mul wide).mpr within
  · rw [Nat.mul_comm, Nat.div_add_mod]

/-- The writes leave the tuples of all rows in place of zeros. -/
theorem foldl_columnWrites {source : Source} (valid : source.WellFormed) {columns : List Nat}
    (inside : ∀ col ∈ columns, col < source.cols) :
    (columnWrites source columns).foldl (fun cells write => cells.setIfInBounds write.1 write.2)
      (Array.replicate (source.rows * columns.length) Cell.zero) =
    ((List.range source.rows).flatMap (source.tuple columns)).toArray := by
  apply Array.ext_getElem?
  intro position
  rw [Writes.getElem?_foldl]
  by_cases within : position < source.rows * columns.length
  · obtain ⟨row, place, inRow, bound, rfl⟩ := exists_position within
    have held : (Writes.last (row * columns.length + place)
        (columnWrites source columns)).getD Cell.zero = source.cell row columns[place] := by
      apply Writes.getD_last
      · intro write member same
        obtain ⟨row', place', bound', _, position', value, _⟩ :=
          (mem_columnWrites valid inside).mp member
        obtain ⟨rfl, rfl⟩ := position_inj bound bound' (same.symm.trans position')
        exact value
      · by_cases zero : (source.cell row columns[place]).isZero = true
        · exact .inr (Cell.isZero_iff.mp zero).symm
        · refine .inl ⟨(row * columns.length + place, source.cell row columns[place]), ?_, rfl⟩
          exact (mem_columnWrites valid inside).mpr
            ⟨row, place, bound, inRow, rfl, rfl, by simpa using zero⟩
    have shown := Source.getElem?_flatMap_tuple source columns inRow bound
    rw [← List.getElem?_toArray] at shown
    rw [shown]
    simp [within, held]
  · have short : ((List.range source.rows).flatMap (source.tuple columns)).length ≤ position := by
      rw [Source.length_flatMap_tuple]
      omega
    simp only [List.getElem?_toArray, List.getElem?_eq_none short]
    simp [within]

/-- Copying chosen columns gives the dense copy, or its sparse form where that takes less space. -/
theorem selectColumns_eq {source : Source} (valid : source.WellFormed) {columns : List Nat}
    (inside : ∀ col ∈ columns, col < source.cols) :
    source.block.selectColumns columns source.transposed =
      if (source.copy columns).nonZeros * 12 + (source.rows + 1) * 8 <
          source.rows * columns.length * 8 then .ok (source.copy columns).toSparse
      else .ok (source.copy columns) := by
  have found : columns.find? (fun col => !(col < source.cols)) = none := by
    rw [List.find?_eq_none]
    intro col member
    simp [inside col member]
  have flat : columns.zipIdx.foldl
      (fun cells choice => (source.column choice.1).foldl
        (fun cells entry => cells.setIfInBounds (entry.1 * columns.length + choice.2) entry.2)
        cells) (Array.replicate (source.rows * columns.length) Cell.zero) =
      (columnWrites source columns).foldl (fun cells write => cells.setIfInBounds write.1 write.2)
        (Array.replicate (source.rows * columns.length) Cell.zero) := by
    rw [columnWrites, List.foldl_flatMap]
    simp only [List.foldl_map]
  simp only [selectColumns, found, flat, foldl_columnWrites valid inside]
  rfl

end Block

end PackedMatrix
