import PackedMatrix.Proofs.ColumnMerge

namespace PackedMatrix

namespace Reader

/-- The reader behind so many calls. -/
def after : Reader → Nat → Reader
  | reader, 0 => reader
  | reader, count + 1 => after reader.next.2 count

/-- A reader that has ended stays as it is. -/
theorem next_of_ended {reader ended : Reader} (last : reader.next = (none, ended)) :
    ended.next = (none, ended) := by
  cases reader with
  | scan source columns row buffer =>
    change scanFrom source columns row buffer = _ at last
    fun_induction scanFrom source columns row buffer with
    | case1 => cases last
    | case2 row buffer inside passed read ih => exact ih last
    | case3 row buffer outside =>
      cases last
      rw [next, scanFrom, if_neg outside]
  | merge cursors buffer =>
    change mergeFrom cursors buffer = _ at last
    fun_induction mergeFrom cursors buffer with
    | case1 cursors buffer none =>
      cases last
      rw [next, mergeFrom_of_none none]
    | case2 cursors buffer row found put zero ih => exact ih last
    | case3 => cases last

theorem yields_nil_next {reader : Reader} (ended : reader.Yields []) : reader.next.2.Yields [] := by
  have last : reader.next = (none, reader.next.2) := Prod.ext ended rfl
  rw [Yields, next_of_ended last]

/-- The call of each number shows the row of that number, and nothing behind the last one. -/
theorem next?_after_of_yields {reader : Reader} {items : List TupleRow}
    (yields : reader.Yields items) (count : Nat) : (reader.after count).next? = items[count]? := by
  induction count generalizing reader items with
  | zero =>
    cases items with
    | nil => exact yields
    | cons item rest => exact yields.1
  | succ count ih =>
    cases items with
    | nil => exact ih (yields_nil_next yields)
    | cons item rest => exact ih yields.2

end Reader

/-- The pointers of a row lie inside, and so do the entries between them. -/
structure SparseRows.HoldsRow (sparse : SparseRows) (row : Nat) : Prop where
  pointers : row + 1 < sparse.rowPtr.size
  ordered : sparse.rowStart row ≤ sparse.rowEnd row
  columns : sparse.rowEnd row ≤ sparse.colIdx.size
  values : sparse.rowEnd row ≤ sparse.values.size

theorem SparseRows.WellFormed.holdsRow {sparse : SparseRows} {rows cols row : Nat}
    (valid : sparse.WellFormed rows cols) (bound : row < rows) : sparse.HoldsRow row where
  pointers := by
    rw [valid.pointerCount]
    exact Nat.succ_lt_succ bound
  ordered := valid.ordered row bound
  columns := (valid.rowEnd_le bound).1
  values := (valid.rowEnd_le bound).2

namespace Source

/-- All that a reader looks at lies inside the storage: the cells of a dense block, the rows of an
upright sparse one, and the rows of a transposed one that hold the chosen columns. -/
def Holds (source : Source) (columns : List Nat) : Prop :=
  match source.block.data with
  | .dense cells => ∀ row < source.rows, ∀ col ∈ columns, source.position row col < cells.size
  | .sparse sparse =>
    if source.transposed then ∀ col ∈ columns, sparse.HoldsRow col
    else ∀ row < source.rows, sparse.HoldsRow row

theorem holds_of_wellFormed {source : Source} {columns : List Nat}
    (valid : source.block.WellFormed) (inside : ∀ col ∈ columns, col < source.cols) :
    source.Holds columns := by
  unfold Holds
  cases data : source.block.data with
  | dense cells =>
    intro row inRow col member
    have inCol := inside col member
    rw [(Block.wellFormed_dense data).mp valid]
    cases turned : source.transposed with
    | false =>
      simp only [rows, cols, position, turned, Bool.false_eq_true, ↓reduceIte] at inRow inCol ⊢
      exact Block.position_lt inRow inCol
    | true =>
      simp only [rows, cols, position, turned, ↓reduceIte] at inRow inCol ⊢
      exact Block.position_lt inCol inRow
  | sparse sparse =>
    have sound := (Block.wellFormed_sparse data).mp valid
    cases turned : source.transposed with
    | false =>
      intro row inRow
      exact sound.holdsRow (by simpa [rows, turned] using inRow)
    | true =>
      intro col member
      exact sound.holdsRow (by simpa [cols, turned] using inside col member)

/-- The rows of the stored matrix whose tuple over the columns is not zero, in order. -/
def storedRows (source : Source) (columns : List Nat) : List TupleRow :=
  TupleRow.nonzeroFrom (source.storedTuple columns) source.rows 0

end Source

/-- Whatever layout an accepted block has, and whichever way it is looked at, call by call a reader
shows the rows whose tuple over the columns is not zero, in increasing order and with the cells that
are stored, and nothing behind the last of them; reading to the end gives the same rows. Nothing
outside the storage is looked at, and where columns can be numbered in 32 bits the stored cells are
those that a lookup finds. -/
theorem Reader.next?_after_start {source : Source} {columns : List Nat}
    (accepted : source.block.validate = .ok ()) (sorted : columns.Pairwise (· < ·))
    (inside : ∀ col ∈ columns, col < source.cols) :
    (∀ count, ((start source columns).after count).next? =
        (source.storedRows columns)[count]?) ∧
      ((source.storedRows columns).map TupleRow.row).Pairwise (· < ·) ∧
      (∀ item, item ∈ source.storedRows columns ↔ item.row < source.rows ∧
        item.tuple = columns.map (source.stored item.row) ∧ isZeroTuple item.tuple = false) ∧
      source.tupleRows columns = source.storedRows columns ∧
      source.Holds columns ∧
      (source.block.cols ≤ maxIndex → ∀ row < source.rows, ∀ col ∈ columns,
        source.get? row col = some (source.stored row col)) := by
  have valid := Block.wellFormed_of_validate accepted
  have yields := yields_start valid sorted inside
  refine ⟨next?_after_of_yields yields, TupleRow.increasing_nonzeroFrom _ _,
    fun item => TupleRow.mem_nonzeroFrom, ?_, Source.holds_of_wellFormed valid inside, ?_⟩
  · rw [Source.tupleRows, drain_of_yields yields]
    simp [Source.storedRows]
  · intro narrow row inRow col member
    exact Source.get?_eq_stored valid narrow inRow (inside col member)

/-- Two columns that lie together, of four rows. Both list a zero for the second row, and the first
one lists a negative zero for the last row. -/
def explicitZeros : Source where
  block :=
    { rows := 2
      cols := 4
      data := .sparse
        { rowPtr := #[0, 3, 5]
          colIdx := #[0, 1, 3, 1, 2]
          values := #[⟨0x3FF0000000000000⟩, Cell.zero, ⟨0x8000000000000000⟩, Cell.zero,
            ⟨0x4000000000000000⟩] } }
  transposed := true

/-- The row of zeros is passed over, the negative zero is not, and the fourth call shows nothing,
nor does any behind it. -/
theorem Reader.next?_after_start_explicitZeros :
    explicitZeros.block.validate = .ok () ∧
      ∀ count, ((start explicitZeros [0, 1]).after count).next? =
        [⟨0, [⟨0x3FF0000000000000⟩, Cell.zero]⟩, ⟨2, [Cell.zero, ⟨0x4000000000000000⟩]⟩,
          (⟨3, [⟨0x8000000000000000⟩, Cell.zero]⟩ : TupleRow)][count]? := by
  have accepted : explicitZeros.block.validate = .ok () := by decide
  have stored : explicitZeros.storedRows [0, 1] =
      [⟨0, [⟨0x3FF0000000000000⟩, Cell.zero]⟩, ⟨2, [Cell.zero, ⟨0x4000000000000000⟩]⟩,
        ⟨3, [⟨0x8000000000000000⟩, Cell.zero]⟩] := by
    decide
  have calls := (next?_after_start accepted (by decide : [0, 1].Pairwise (· < ·)) (by decide)).1
  rw [stored] at calls
  exact ⟨accepted, calls⟩

end PackedMatrix
