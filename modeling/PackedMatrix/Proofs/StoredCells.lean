import PackedMatrix.Proofs.SourceView

namespace PackedMatrix

/-- An increasing list has one entry for a key at most, and a lookup finds it. -/
theorem lookup_eq_some_iff_mem {entries : List (Nat × Cell)}
    (sorted : (entries.map Prod.fst).Pairwise (· < ·)) {key : Nat} {value : Cell} :
    entries.lookup key = some value ↔ (key, value) ∈ entries := by
  induction entries with
  | nil => simp
  | cons first rest ih =>
    rw [List.map_cons, List.pairwise_cons] at sorted
    by_cases here : key = first.1
    · subst here
      have others : ∀ value, (first.1, value) ∉ rest := fun value member =>
        Nat.lt_irrefl _ (sorted.1 first.1 (List.mem_map.mpr ⟨_, member, rfl⟩))
      rw [List.lookup_cons, List.mem_cons]
      simp [others, Prod.ext_iff, eq_comm]
    · have differs : (key == first.1) = false := by simpa using here
      have apart : (key, value) ≠ first := fun same => here (congrArg Prod.fst same)
      rw [List.lookup_cons, differs, List.mem_cons]
      simp [apart, ih sorted.2]

namespace SparseRows

/-- The cell that a row lists with a column, or zero. -/
def stored (sparse : SparseRows) (row col : Nat) : Cell :=
  ((sparse.entries row).lookup col).getD Cell.zero

theorem WellFormed.cell_eq_stored {sparse : SparseRows} {rows cols row col : Nat}
    (valid : sparse.WellFormed rows cols) (narrow : cols ≤ maxIndex) (bound : row < rows)
    (small : col ≤ maxIndex) : sparse.cell row col = sparse.stored row col := by
  have sorted := valid.increasing_entries bound
  rcases valid.mem_entries_or_zero narrow bound small with listed | ⟨absent, zero⟩
  · rw [stored, (lookup_eq_some_iff_mem sorted).mpr listed, Option.getD_some]
  · have missing : (sparse.entries row).lookup col = none :=
      Option.eq_none_iff_forall_ne_some.mpr fun value found =>
        absent value ((lookup_eq_some_iff_mem sorted).mp found)
    rw [zero, stored, missing, Option.getD_none]

end SparseRows

/-- The cell that a block holds at a place. -/
def Block.stored (block : Block) (row col : Nat) : Cell :=
  match block.data with
  | .dense cells => cells.getD (row * block.cols + col) Cell.zero
  | .sparse sparse => sparse.stored row col

theorem Block.cell_eq_stored {block : Block} (valid : block.WellFormed)
    (narrow : block.cols ≤ maxIndex) {row col : Nat} (inRow : row < block.rows)
    (inCol : col < block.cols) : block.cell row col = block.stored row col := by
  cases data : block.data with
  | dense cells => simp only [cell, stored, data]
  | sparse sparse =>
    have sound := (Block.wellFormed_sparse data).mp valid
    simpa only [cell, stored, data] using sound.cell_eq_stored narrow inRow (by omega)

namespace Source

variable {source : Source}

/-- The cell of the matrix that the source stands for, as it is stored. -/
def stored (source : Source) (row col : Nat) : Cell :=
  if source.transposed then source.block.stored col row else source.block.stored row col

/-- The stored cells of chosen columns in one row. -/
def storedTuple (source : Source) (columns : List Nat) (row : Nat) : List Cell :=
  columns.map (source.stored row)

theorem get?_eq_stored (valid : source.block.WellFormed) (narrow : source.block.cols ≤ maxIndex)
    {row col : Nat} (inRow : row < source.rows) (inCol : col < source.cols) :
    source.get? row col = some (source.stored row col) := by
  unfold rows at inRow
  unfold cols at inCol
  cases turned : source.transposed with
  | false =>
    rw [turned, if_neg (by simp)] at inRow inCol
    simp [get?, stored, turned, Block.get?, inRow, inCol,
      Block.cell_eq_stored valid narrow inRow inCol]
  | true =>
    rw [turned, if_pos rfl] at inRow inCol
    simp [get?, stored, turned, Block.get?, inRow, inCol,
      Block.cell_eq_stored valid narrow inCol inRow]

/-- Sources whose rows and columns can be numbered in 32 bits show the tuples they store. -/
theorem storedTuple_eq (valid : source.WellFormed) {columns : List Nat}
    (inside : ∀ col ∈ columns, col < source.cols) {row : Nat} (bound : row < source.rows) :
    source.storedTuple columns row = source.tuple columns row := by
  refine List.map_congr_left fun col member => ?_
  have inCol := inside col member
  unfold rows at bound
  unfold cols at inCol
  unfold stored cell
  split
  next turned =>
    rw [if_pos turned] at bound inCol
    rw [Block.cell_eq_stored valid.block valid.narrow inCol bound]
  next upright =>
    rw [if_neg upright] at bound inCol
    rw [Block.cell_eq_stored valid.block valid.narrow bound inCol]

end Source

end PackedMatrix
