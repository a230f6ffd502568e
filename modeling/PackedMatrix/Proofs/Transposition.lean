import PackedMatrix.Proofs.BlockLayout
import PackedMatrix.Proofs.CountingSort
import PackedMatrix.Proofs.Writes

namespace PackedMatrix

namespace Block

namespace Placing

/-- The cells that were met lie in order under their columns, and each column knows its next
slot. -/
structure Holds (placing : Placing) (cols : Nat) (cells done : List Triplet) : Prop where
  next : ∀ col < cols, placing.next[col]? =
    some ((cells.map Triplet.col).countP (· < col) + (done.filter (·.col == col)).length)
  sizeRows : placing.colIdx.size = cells.length
  sizeCells : placing.values.size = cells.length
  colIdx : CountingSort.Filled Triplet.col cols cells done (fun t => UInt32.ofNat t.row)
    placing.colIdx
  values : CountingSort.Filled Triplet.col cols cells done Triplet.value placing.values

variable {placing : Placing} {cols : Nat} {cells done later : List Triplet} {t : Triplet}

theorem Holds.put (holds : placing.Holds cols cells done) (split : cells = done ++ t :: later)
    (inside : t.col < cols) : (placing.put t).Holds cols cells (done ++ [t]) := by
  have slot : placing.next.getD t.col 0 =
      (cells.map Triplet.col).countP (· < t.col) + (done.filter (·.col == t.col)).length := by
    rw [Array.getD_eq_getD_getElem?, holds.next t.col inside]
    rfl
  have colIdx := holds.colIdx.put holds.sizeRows split
  have values := holds.values.put holds.sizeCells split
  rw [← slot] at colIdx values
  refine ⟨fun col bound => ?_, ?_, ?_, colIdx, values⟩
  · rw [Placing.put, Array.getElem?_modify, holds.next col bound, List.filter_append,
      List.length_append]
    by_cases here : t.col = col
    · simp [here, Nat.add_assoc]
    · simp [here]
  · rw [Placing.put, Array.size_setIfInBounds, holds.sizeRows]
  · rw [Placing.put, Array.size_setIfInBounds, holds.sizeCells]

theorem Holds.foldl (holds : placing.Holds cols cells done) (split : cells = done ++ later)
    (inside : ∀ t ∈ cells, t.col < cols) :
    (later.foldl Placing.put placing).Holds cols cells cells := by
  induction later generalizing placing done with
  | nil =>
    rw [List.append_nil] at split
    rwa [split] at holds ⊢
  | cons t rest ih =>
    have next := holds.put split (inside t (by simp [split]))
    exact ih next (by rw [split, List.append_assoc]; rfl)

/-- From empty slots, all cells are put into order. -/
theorem holds_foldl {keys : List Nat} {size : Nat} (columns : cells.map Triplet.col = keys)
    (count : cells.length = size) (inside : ∀ t ∈ cells, t.col < cols) :
    (cells.foldl Placing.put ⟨CountingSort.starts cols keys, Array.replicate size 0,
      Array.replicate size Cell.zero⟩).Holds cols cells cells := by
  subst columns count
  refine Holds.foldl ⟨fun col bound => ?_, Array.size_replicate, Array.size_replicate,
    CountingSort.filled_nil, CountingSort.filled_nil⟩ (List.nil_append cells).symm inside
  rw [CountingSort.getElem?_starts _ (Nat.le_of_lt bound)]
  rfl

end Placing

end Block

namespace SparseRows

variable {sparse : SparseRows} {rows cols : Nat}

theorem map_col_storedTriplets (valid : sparse.WellFormed rows cols) :
    (Block.storedTriplets rows sparse).map (·.col) = sparse.colIdx.toList.map UInt32.toNat := by
  have columns : (Block.storedTriplets rows sparse).map (·.col) =
      (List.range rows).flatMap sparse.rowColumns := by
    rw [Block.storedTriplets, List.map_flatMap]
    apply List.flatMap_congr
    intro row member
    rw [List.map_map, ← valid.map_fst_entries (List.mem_range.mp member)]
    rfl
  have joined := Segments.flatMap_extract sparse.colIdx valid.first valid.ordered
  rw [valid.columnEnd, ← Array.length_toList, List.take_length] at joined
  rw [columns, ← joined, List.map_flatMap]
  rfl

theorem mem_storedTriplets {t : Block.Triplet} :
    t ∈ Block.storedTriplets rows sparse ↔
      t.row < rows ∧ (t.col, t.value) ∈ sparse.entries t.row := by
  simp only [Block.storedTriplets, List.mem_flatMap, List.mem_range, List.mem_map]
  constructor
  · rintro ⟨row, bound, entry, stored, rfl⟩
    exact ⟨bound, stored⟩
  · rintro ⟨bound, stored⟩
    exact ⟨t.row, bound, (t.col, t.value), stored, rfl⟩

theorem ordered_storedTriplets (valid : sparse.WellFormed rows cols) :
    (Block.storedTriplets rows sparse).Pairwise
      fun a b => a.row < b.row ∨ (a.row = b.row ∧ a.col < b.col) := by
  rw [Block.storedTriplets, List.pairwise_flatMap]
  refine ⟨?_, ?_⟩
  · intro row member
    have sorted := valid.increasing_entries (List.mem_range.mp member)
    rw [List.pairwise_map] at sorted ⊢
    exact sorted.imp fun less => Or.inr ⟨rfl, less⟩
  · apply List.pairwise_lt_range.imp
    intro a b less x first y second
    obtain ⟨_, _, rfl⟩ := List.mem_map.mp first
    obtain ⟨_, _, rfl⟩ := List.mem_map.mp second
    exact Or.inl less

/-- The stored cells of a column with their rows. -/
def columnEntries (rows : Nat) (sparse : SparseRows) (col : Nat) : List (Nat × Cell) :=
  ((Block.storedTriplets rows sparse).filter (·.col == col)).map fun t => (t.row, t.value)

theorem mem_columnEntries {col : Nat} {entry : Nat × Cell} :
    entry ∈ columnEntries rows sparse col ↔
      entry.1 < rows ∧ (col, entry.2) ∈ sparse.entries entry.1 := by
  simp only [columnEntries, List.mem_map, List.mem_filter, beq_iff_eq, mem_storedTriplets]
  constructor
  · rintro ⟨t, ⟨⟨bound, stored⟩, rfl⟩, rfl⟩
    exact ⟨bound, stored⟩
  · rintro ⟨bound, stored⟩
    exact ⟨⟨entry.1, col, entry.2⟩, ⟨⟨bound, stored⟩, rfl⟩, rfl⟩

theorem increasing_columnEntries (valid : sparse.WellFormed rows cols) (col : Nat) :
    ((columnEntries rows sparse col).map Prod.fst).Pairwise (· < ·) := by
  rw [columnEntries, List.map_map, List.pairwise_map]
  refine (List.Pairwise.filter _ (ordered_storedTriplets valid)).imp_of_mem ?_
  intro a b first second order
  have here : a.col = col := by simpa using (List.mem_filter.mp first).2
  have there : b.col = col := by simpa using (List.mem_filter.mp second).2
  rcases order with less | ⟨_, less⟩
  · exact less
  · omega

theorem length_columnEntries (valid : sparse.WellFormed rows cols) (col : Nat) :
    (columnEntries rows sparse col).length =
      (sparse.colIdx.toList.map UInt32.toNat).countP (· == col) := by
  rw [← map_col_storedTriplets valid, CountingSort.countP_map_key, columnEntries, List.length_map]

theorem length_storedTriplets (valid : sparse.WellFormed rows cols) :
    (Block.storedTriplets rows sparse).length = sparse.values.size := by
  have counted := congrArg List.length (map_col_storedTriplets valid)
  have whole : sparse.colIdx.toList.length = sparse.values.size := by
    rw [Array.length_toList, ← valid.columnEnd, valid.valueEnd]
  rwa [List.length_map, List.length_map, whole] at counted

/-- Sorting by column keeps every stored cell and adds none. -/
theorem swapSparse_eq (valid : sparse.WellFormed rows cols) :
    Block.swapSparse rows cols sparse =
      ofEntries ((List.range cols).map (columnEntries rows sparse)) := by
  have inside : ∀ t ∈ Block.storedTriplets rows sparse, t.col < cols := by
    intro t stored
    obtain ⟨bound, there⟩ := mem_storedTriplets.mp stored
    exact valid.col_lt_of_mem bound there
  have placed := Block.Placing.holds_foldl (map_col_storedTriplets valid)
    (length_storedTriplets valid) inside
  have columns : ∀ {α : Type} (pick : Nat × Cell → α),
      ((List.range cols).map (columnEntries rows sparse)).flatMap (fun row => row.map pick) =
        (List.range cols).flatMap fun col =>
          ((Block.storedTriplets rows sparse).filter (·.col == col)).map
            fun t => pick (t.row, t.value) := by
    intro α pick
    simp only [List.flatMap_map, columnEntries, List.map_map, Function.comp_def]
  have rowIdx := placed.colIdx.toList_eq placed.sizeRows inside
  have cells := placed.values.toList_eq placed.sizeCells inside
  rw [← columns fun entry => UInt32.ofNat entry.1] at rowIdx
  rw [← columns Prod.snd] at cells
  have pointers := CountingSort.starts_eq_pointers (sparse.colIdx.toList.map UInt32.toNat) cols
    fun col _ => length_columnEntries valid col
  rw [← rowPtr_ofEntries] at pointers
  simp only [Block.swapSparse, ofEntries, SparseRows.mk.injEq]
  refine ⟨pointers, ?_, ?_⟩
  · rw [← rowIdx, Array.toArray_toList]
  · rw [← cells, Array.toArray_toList]

theorem wellFormed_swapSparse (valid : sparse.WellFormed rows cols) (narrow : rows ≤ maxIndex) :
    (Block.swapSparse rows cols sparse).WellFormed cols rows := by
  have made := wellFormed_ofEntries
    ((List.range cols).map (columnEntries rows sparse)) narrow
    (by
      intro column member
      obtain ⟨col, _, rfl⟩ := List.mem_map.mp member
      exact increasing_columnEntries valid col)
    (by
      intro column member entry stored
      obtain ⟨col, _, rfl⟩ := List.mem_map.mp member
      exact (mem_columnEntries.mp stored).1)
  rw [List.length_map, List.length_range] at made
  rw [swapSparse_eq valid]
  exact made

theorem entries_swapSparse (valid : sparse.WellFormed rows cols) (narrow : rows ≤ maxIndex)
    {col : Nat} (inside : col < cols) :
    (Block.swapSparse rows cols sparse).entries col = columnEntries rows sparse col := by
  rw [swapSparse_eq valid, entries_ofEntries (by simpa using inside)]
  · simp
  · intro entry member
    simp only [List.getElem_map, List.getElem_range] at member
    have := (mem_columnEntries.mp member).1
    rw [maxIndex] at narrow
    rw [UInt32.size]
    omega

/-- A sorted column shows what the rows show in it. -/
theorem cell_swapSparse (valid : sparse.WellFormed rows cols) (short : rows ≤ maxIndex)
    (narrow : cols ≤ maxIndex) {row col : Nat} (inRow : row < rows) (inCol : col < cols) :
    (Block.swapSparse rows cols sparse).cell col row = sparse.cell row col := by
  have swapped := wellFormed_swapSparse valid short
  have stored := entries_swapSparse valid short inCol
  have small : col ≤ maxIndex := by omega
  rcases valid.mem_entries_or_zero narrow inRow small with member | ⟨absent, zero⟩
  · refine swapped.cell_of_mem short inCol ?_
    rw [stored]
    exact mem_columnEntries.mpr ⟨inRow, member⟩
  · rw [zero]
    refine swapped.cell_of_not_mem inCol (by omega) ?_
    rw [← swapped.map_fst_entries inCol, stored]
    intro member
    obtain ⟨⟨_, value⟩, present, rfl⟩ := List.mem_map.mp member
    exact absent value (mem_columnEntries.mp present).2

end SparseRows

namespace Block

variable {block : Block}

theorem wellFormed_transpose (valid : block.WellFormed) (short : block.rows ≤ maxIndex) :
    block.transpose.WellFormed := by
  cases data : block.data with
  | dense cells => simp [transpose, data, WellFormed]
  | sparse sparse =>
    simp only [transpose, data, WellFormed]
    exact SparseRows.wellFormed_swapSparse ((wellFormed_sparse data).mp valid) short

theorem shape_transpose (block : Block) :
    block.transpose.rows = block.cols ∧ block.transpose.cols = block.rows := by
  cases data : block.data <;> simp [transpose, data]

theorem cell_transpose (valid : block.WellFormed) (short : block.rows ≤ maxIndex)
    (narrow : block.cols ≤ maxIndex) {row col : Nat} (inRow : row < block.rows)
    (inCol : col < block.cols) : block.transpose.cell col row = block.cell row col := by
  cases data : block.data with
  | dense cells =>
    have place := position_lt inCol inRow
    have low : (col * block.rows + row) % block.rows = row := by
      rw [Nat.mul_comm, Nat.mul_add_mod, Nat.mod_eq_of_lt inRow]
    have high : (col * block.rows + row) / block.rows = col := by
      rw [Nat.mul_comm, Nat.mul_add_div (by omega), Nat.div_eq_of_lt inRow, Nat.add_zero]
    simp [transpose, data, cell, Array.getD_eq_getD_getElem?, place, low, high]
  | sparse sparse =>
    simp only [transpose, data, cell]
    exact SparseRows.cell_swapSparse ((wellFormed_sparse data).mp valid) short narrow inRow inCol

theorem mem_flatMap_fillWrites {rows cols : Nat} {cells : Array Cell} {order : List Nat}
    {write : Nat × Cell} : write ∈ order.flatMap (fillWrites rows cols cells) ↔
      ∃ col ∈ order, ∃ row, row < rows ∧
        (col * rows + row, cells.getD (row * cols + col) Cell.zero) = write := by
  simp [fillWrites]

/-- Every row of the transpose is filled with a column of the block, whichever comes first. -/
theorem transposeBy_eq {block : Block} {order : List Nat}
    (every : order.Perm (List.range block.cols)) : block.transposeBy order = block.transpose := by
  obtain ⟨rows, cols, data⟩ := block
  cases data with
  | sparse sparse => rfl
  | dense cells =>
    have every : ∀ col, col ∈ order ↔ col < cols := fun col => every.mem_iff.trans List.mem_range
    simp only [transposeBy, transpose, mk.injEq, BlockData.dense.injEq, true_and]
    apply Array.ext_getElem?
    intro place
    rw [Writes.getElem?_foldl]
    by_cases inside : place < cols * rows
    · have positive : 0 < rows := by
        refine Nat.pos_of_ne_zero fun none_ => ?_
        rw [none_, Nat.mul_zero] at inside
        omega
      have inRow : place % rows < rows := Nat.mod_lt _ positive
      have inCol : place / rows < cols := Nat.div_lt_of_lt_mul (Nat.mul_comm cols rows ▸ inside)
      have split : place / rows * rows + place % rows = place := by
        rw [Nat.mul_comm]
        exact Nat.div_add_mod place rows
      have held : (Writes.last place (order.flatMap (fillWrites rows cols cells))).getD Cell.zero =
          cells.getD (place % rows * cols + place / rows) Cell.zero := by
        apply Writes.getD_last
        · intro write member here
          obtain ⟨col, _, row, bound, rfl⟩ := mem_flatMap_fillWrites.mp member
          obtain ⟨rfl, rfl⟩ := position_inj bound inRow (here.trans split.symm)
          rfl
        · exact .inl ⟨_, mem_flatMap_fillWrites.mpr ⟨_, (every _).mpr inCol, _, inRow, rfl⟩, split⟩
      have stored : place < rows * cols := Nat.mul_comm cols rows ▸ inside
      simp [stored, inside, held]
    · have outside : ¬ place < rows * cols := Nat.mul_comm cols rows ▸ inside
      simp [outside, inside]

@[simp] theorem transposeOn_eq (pool : Pool) (block : Block) :
    block.transposeOn pool = block.transpose :=
  transposeBy_eq (pool.order_perm block.cols)

end Block

end PackedMatrix
