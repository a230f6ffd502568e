import PackedMatrix.Bitmap.Extract
import PackedMatrix.Proofs.StoredCells

namespace PackedMatrix

namespace TupleRow

/-- A row with its tuple, unless the tuple is zero. -/
def nonzero? (tuple : Nat → List Cell) (row : Nat) : Option TupleRow :=
  if isZeroTuple (tuple row) then none else some ⟨row, tuple row⟩

/-- The rows from a place up to the last one whose tuple is not zero. -/
def nonzeroFrom (tuple : Nat → List Cell) (rows row : Nat) : List TupleRow :=
  (List.range' row (rows - row)).filterMap (nonzero? tuple)

variable {tuple : Nat → List Cell} {rows row : Nat}

theorem nonzeroFrom_of_zero (inside : row < rows) (zero : isZeroTuple (tuple row) = true) :
    nonzeroFrom tuple rows row = nonzeroFrom tuple rows (row + 1) := by
  have next : rows - row = rows - (row + 1) + 1 := by omega
  rw [nonzeroFrom, next, List.range'_succ, List.filterMap_cons]
  simp [nonzero?, zero, nonzeroFrom]

theorem nonzeroFrom_of_nonzero (inside : row < rows) (nonzero : isZeroTuple (tuple row) = false) :
    nonzeroFrom tuple rows row = ⟨row, tuple row⟩ :: nonzeroFrom tuple rows (row + 1) := by
  have next : rows - row = rows - (row + 1) + 1 := by omega
  rw [nonzeroFrom, next, List.range'_succ, List.filterMap_cons]
  simp [nonzero?, nonzero, nonzeroFrom]

theorem nonzeroFrom_of_le (outside : rows ≤ row) : nonzeroFrom tuple rows row = [] := by
  have none : rows - row = 0 := by omega
  rw [nonzeroFrom, none]
  rfl

theorem nonzeroFrom_skip {next : Nat} (order : row ≤ next) (bound : next ≤ rows)
    (zero : ∀ place, row ≤ place → place < next → isZeroTuple (tuple place) = true) :
    nonzeroFrom tuple rows row = nonzeroFrom tuple rows next := by
  induction next with
  | zero =>
    have : row = 0 := by omega
    rw [this]
  | succ next ih =>
    rcases Nat.eq_or_lt_of_le order with rfl | less
    · rfl
    · rw [ih (by omega) (by omega) fun place first second => zero place first (by omega),
        nonzeroFrom_of_zero (by omega) (zero next (by omega) (by omega))]

theorem nonzeroFrom_eq_nil (zero : ∀ row, row < rows → isZeroTuple (tuple row) = true) :
    nonzeroFrom tuple rows 0 = [] := by
  rw [nonzeroFrom_skip (Nat.zero_le rows) (Nat.le_refl rows) fun row _ bound => zero row bound,
    nonzeroFrom_of_le (Nat.le_refl rows)]

theorem nonzeroFrom_congr {other : Nat → List Cell}
    (same : ∀ row, row < rows → tuple row = other row) :
    nonzeroFrom tuple rows 0 = nonzeroFrom other rows 0 := by
  rw [nonzeroFrom, nonzeroFrom, Nat.sub_zero, ← List.range_eq_range']
  refine List.filterMap_congr fun row member => ?_
  rw [nonzero?, nonzero?, same row (List.mem_range.mp member)]

theorem mem_nonzeroFrom {item : TupleRow} : item ∈ nonzeroFrom tuple rows 0 ↔
    item.row < rows ∧ item.tuple = tuple item.row ∧ isZeroTuple item.tuple = false := by
  simp only [nonzeroFrom, Nat.sub_zero, ← List.range_eq_range', List.mem_filterMap, List.mem_range,
    nonzero?]
  constructor
  · rintro ⟨row, bound, here⟩
    split at here
    next => simp at here
    next nonzero =>
      cases here
      exact ⟨bound, rfl, by simpa using nonzero⟩
  · rintro ⟨bound, same, nonzero⟩
    refine ⟨item.row, bound, ?_⟩
    rw [← same, nonzero]
    rfl

theorem row_of_nonzero? {item : TupleRow} (shown : nonzero? tuple row = some item) :
    item.row = row := by
  unfold nonzero? at shown
  split at shown
  next => cases shown
  next =>
    cases shown
    rfl

theorem increasing_nonzeroFrom (tuple : Nat → List Cell) (rows : Nat) :
    ((nonzeroFrom tuple rows 0).map TupleRow.row).Pairwise (· < ·) := by
  rw [nonzeroFrom, List.pairwise_map, Nat.sub_zero, ← List.range_eq_range', List.pairwise_filterMap]
  apply List.pairwise_lt_range.imp
  intro a b less first shown second shown'
  rw [row_of_nonzero? shown, row_of_nonzero? shown']
  exact less

end TupleRow

namespace Source

/-- The rows from a place on whose tuple over the columns is not zero. -/
def shownFrom (source : Source) (columns : List Nat) (row : Nat) : List TupleRow :=
  TupleRow.nonzeroFrom (source.tuple columns) source.rows row

variable {source : Source} {columns : List Nat}

/-- The rows that are shown are those with a tuple that is not zero. -/
theorem mem_shownFrom {item : TupleRow} : item ∈ source.shownFrom columns 0 ↔
    item.row < source.rows ∧ item.tuple = source.tuple columns item.row ∧
      isZeroTuple item.tuple = false :=
  TupleRow.mem_nonzeroFrom

theorem increasing_shownFrom (source : Source) (columns : List Nat) :
    ((source.shownFrom columns 0).map TupleRow.row).Pairwise (· < ·) :=
  TupleRow.increasing_nonzeroFrom (source.tuple columns) source.rows

end Source

namespace Reader

/-- A reader shows some rows in order and then nothing. -/
def Yields (reader : Reader) : List TupleRow → Prop
  | [] => reader.next.1 = none
  | item :: rest => reader.next.1 = some item ∧ Yields reader.next.2 rest

theorem Yields.of_next_eq {first second : Reader} (same : first.next = second.next)
    {items : List TupleRow} (yields : second.Yields items) : first.Yields items := by
  cases items with
  | nil => rwa [Yields, same]
  | cons item rest => rwa [Yields, same]

theorem drain_of_yields {reader : Reader} {items : List TupleRow} (yields : reader.Yields items)
    (read : Array TupleRow) : (reader.drain read).1 = read ++ items.toArray := by
  induction items generalizing reader read with
  | nil =>
    unfold drain
    split
    next => simp
    next found after step =>
      rw [Yields, step] at yields
      cases yields
  | cons item rest ih =>
    obtain ⟨shows_, more⟩ := yields
    unfold drain
    split
    next after ended =>
      rw [ended] at shows_
      cases shows_
    next found after step =>
      rw [step] at shows_ more
      cases shows_
      rw [ih more]
      simp

end Reader

namespace RowBuffer

@[simp] theorem size_clear (buffer : RowBuffer) : buffer.clear.size = buffer.size :=
  Array.size_map

@[simp] theorem size_put (buffer : RowBuffer) (writes : List (Nat × Cell)) :
    (buffer.put writes).size = buffer.size :=
  Writes.size_foldl writes buffer

theorem getElem?_put (buffer : RowBuffer) (writes : List (Nat × Cell)) (place : Nat) :
    (buffer.put writes)[place]? =
      buffer[place]?.map fun old => (Writes.last place writes).getD old :=
  Writes.getElem?_foldl writes buffer place

section Found

variable {columns : List Nat} {writes : List (Nat × Cell)} (found : Nat → Option Cell)
  (listed : ∀ write, write ∈ writes ↔ ∃ place, ∃ (_ : place < columns.length),
    write.1 = place ∧ found columns[place] = some write.2)

include listed

/-- If a cleared buffer gets the cells that some columns have, the others show zero. -/
theorem toList_put_clear {buffer : RowBuffer} (size : buffer.size = columns.length) :
    (buffer.clear.put writes).toList = columns.map fun col => (found col).getD Cell.zero := by
  apply List.ext_getElem?
  intro place
  rw [Array.getElem?_toList, getElem?_put]
  by_cases within : place < columns.length
  · have held : (Writes.last place writes).getD Cell.zero =
        (found columns[place]).getD Cell.zero := by
      apply Writes.getD_last
      · intro write member same
        obtain ⟨place', _, here, has⟩ := (listed write).mp member
        obtain rfl : place' = place := here.symm.trans same
        rw [has, Option.getD_some]
      · cases has : found columns[place] with
        | none => exact .inr rfl
        | some value => exact .inl ⟨(place, value), (listed _).mpr ⟨place, within, rfl, has⟩, rfl⟩
    simp [clear, size, within, held]
  · simp [clear, size, within]

/-- One of the cells is not zero if the tuple is not. -/
theorem any_writes : (writes.any fun write => !write.2.isZero) =
    !isZeroTuple (columns.map fun col => (found col).getD Cell.zero) := by
  rw [Bool.eq_iff_iff]
  simp only [List.any_eq_true, Bool.not_eq_true', isZeroTuple, List.all_map]
  rw [List.all_eq_false]
  constructor
  · rintro ⟨write, member, nonzero⟩
    obtain ⟨place, within, _, has⟩ := (listed write).mp member
    refine ⟨columns[place], List.getElem_mem within, ?_⟩
    simp [has, nonzero]
  · rintro ⟨col, member, nonzero⟩
    obtain ⟨place, within, rfl⟩ := List.mem_iff_getElem.mp member
    rw [Function.comp_apply, Bool.not_eq_true] at nonzero
    cases has : found columns[place] with
    | none => simp [has, Cell.isZero_iff.mpr] at nonzero
    | some value =>
      rw [has] at nonzero
      exact ⟨(place, value), (listed _).mpr ⟨place, within, rfl, has⟩, nonzero⟩

end Found

/-- If every place is written, the buffer holds what was written. -/
theorem toList_put_zipIdx (cells : Nat → Cell) {columns : List Nat} {buffer : RowBuffer}
    (size : buffer.size = columns.length) :
    (buffer.put (columns.zipIdx.map fun choice => (choice.2, cells choice.1))).toList =
      columns.map cells := by
  apply List.ext_getElem?
  intro place
  rw [Array.getElem?_toList, getElem?_put]
  by_cases within : place < columns.length
  · have held : Writes.last place (columns.zipIdx.map fun choice => (choice.2, cells choice.1)) =
        some (cells columns[place]) := by
      refine Writes.last_eq_some _ ?_ ⟨(place, cells columns[place]), ?_, rfl⟩
      · intro write member same
        obtain ⟨⟨col, place'⟩, chosen, rfl⟩ := List.mem_map.mp member
        obtain rfl : place' = place := same
        obtain ⟨_, here⟩ := List.mem_zipIdx' chosen
        exact congrArg cells here
      · exact List.mem_map.mpr ⟨(columns[place], place),
          List.mem_zipIdx_iff_getElem?.mpr (by simp [within]), rfl⟩
    simp [size, within, held]
  · simp [size, within]

end RowBuffer

/-- Places of chosen columns are searched for in the entries of a row. -/
theorem SparseRows.mem_chosen {sparse : SparseRows} {columns : List Nat}
    (sorted : columns.Pairwise (· < ·)) {row : Nat}
    (increasing : ((sparse.entries row).map Prod.fst).Pairwise (· < ·)) (write : Nat × Cell) :
    write ∈ sparse.chosen columns.toArray row ↔ ∃ place, ∃ (_ : place < columns.length),
      write.1 = place ∧ (sparse.entries row).lookup columns[place] = some write.2 := by
  simp only [chosen, Search.find?_toArray sorted, List.mem_filterMap, Option.map_eq_some_iff,
    Option.ite_none_right_eq_some, Option.some.injEq, lookup_eq_some_iff_mem increasing]
  constructor
  · rintro ⟨entry, stored, _, ⟨member, rfl⟩, rfl⟩
    refine ⟨columns.idxOf entry.1, List.idxOf_lt_length_iff.mpr member, rfl, ?_⟩
    rw [List.getElem_idxOf]
    exact stored
  · rintro ⟨place, within, here, stored⟩
    refine ⟨(columns[place], write.2), stored, place, ⟨List.getElem_mem within, ?_⟩, ?_⟩
    · exact Increasing.idxOf_getElem sorted within
    · exact Prod.ext here.symm rfl

namespace Source

variable {source : Source} {columns : List Nat}

/-- A dense row is read over whatever the buffer held. -/
theorem readRow_of_dense {cells : Array Cell} (data : source.block.data = .dense cells) {row : Nat}
    {buffer : RowBuffer} (size : buffer.size = columns.length) :
    (source.readRow columns.toArray row buffer).1 =
        !isZeroTuple (source.storedTuple columns row) ∧
      (source.readRow columns.toArray row buffer).2.toList = source.storedTuple columns row := by
  have shown : columns.map (fun col => cells.getD (source.position row col) Cell.zero) =
      source.storedTuple columns row := by
    refine List.map_congr_left fun col _ => ?_
    cases turned : source.transposed <;> simp [position, stored, turned, Block.stored, data]
  have put := RowBuffer.toList_put_zipIdx
    (fun col => cells.getD (source.position row col) Cell.zero) size
  rw [shown] at put
  simp only [readRow, data, put, and_self]

/-- A sparse row is read into a cleared buffer; the buffer is left alone if the row stores
nothing, and then the row is zero. -/
theorem readRow_of_sparse {sparse : SparseRows} (data : source.block.data = .sparse sparse)
    (upright : source.transposed = false) (valid : source.block.WellFormed)
    (sorted : columns.Pairwise (· < ·)) {row : Nat} (bound : row < source.rows)
    {buffer : RowBuffer} (size : buffer.size = columns.length) :
    (source.readRow columns.toArray row buffer).1 =
        !isZeroTuple (source.storedTuple columns row) ∧
      (isZeroTuple (source.storedTuple columns row) = false →
        (source.readRow columns.toArray row buffer).2.toList = source.storedTuple columns row) := by
  have sound := (Block.wellFormed_sparse data).mp valid
  have inRow : row < source.block.rows := by simpa [rows, upright] using bound
  have listed := SparseRows.mem_chosen sorted (sound.increasing_entries inRow)
  have shown : (columns.map fun col => ((sparse.entries row).lookup col).getD Cell.zero) =
      source.storedTuple columns row := by
    refine List.map_congr_left fun col _ => ?_
    simp [stored, upright, Block.stored, data, SparseRows.stored]
  have any := RowBuffer.any_writes (fun col => (sparse.entries row).lookup col) listed
  have put := RowBuffer.toList_put_clear (fun col => (sparse.entries row).lookup col) listed size
  rw [shown] at any put
  simp only [readRow, data]
  split
  next empty =>
    have none : sparse.entries row = [] := by
      rw [← List.map_eq_nil_iff (f := Prod.fst), sound.map_fst_entries inRow]
      exact List.isEmpty_iff.mp empty
    have zero : isZeroTuple (source.storedTuple columns row) = true := by
      simpa [SparseRows.chosen, none] using any
    simp [zero]
  next => exact ⟨any, fun _ => put⟩

@[simp] theorem size_readRow (source : Source) (columns : Array Nat) (row : Nat)
    (buffer : RowBuffer) : (source.readRow columns row buffer).2.size = buffer.size := by
  unfold readRow
  split
  next => exact RowBuffer.size_put _ _
  next =>
    split
    next => rfl
    next => exact (RowBuffer.size_put _ _).trans (RowBuffer.size_clear _)

/-- A row is read as it is stored, whatever the buffer held before. -/
theorem readRow_eq (valid : source.block.WellFormed) (sorted : columns.Pairwise (· < ·))
    (scanned : source.block.isSparse = false ∨ source.transposed = false) {row : Nat}
    (bound : row < source.rows) {buffer : RowBuffer} (size : buffer.size = columns.length) :
    (source.readRow columns.toArray row buffer).1 =
        !isZeroTuple (source.storedTuple columns row) ∧
      (isZeroTuple (source.storedTuple columns row) = false →
        (source.readRow columns.toArray row buffer).2.toList = source.storedTuple columns row) := by
  cases data : source.block.data with
  | dense cells =>
    obtain ⟨found, shown⟩ := readRow_of_dense data size
    exact ⟨found, fun _ => shown⟩
  | sparse sparse =>
    have upright : source.transposed = false := by
      rcases scanned with dense | upright
      · simp [Block.isSparse, data] at dense
      · exact upright
    exact readRow_of_sparse data upright valid sorted bound size

end Source

/-- A scan shows the rows from its place on that are not zero. -/
theorem Reader.yields_scan {source : Source} {columns : List Nat} (valid : source.block.WellFormed)
    (sorted : columns.Pairwise (· < ·))
    (scanned : source.block.isSparse = false ∨ source.transposed = false) (row : Nat)
    (buffer : RowBuffer) (size : buffer.size = columns.length) :
    (scan source columns.toArray row buffer).Yields
      (TupleRow.nonzeroFrom (source.storedTuple columns) source.rows row) := by
  by_cases inside : row < source.rows
  · obtain ⟨found, shown⟩ := Source.readRow_eq valid sorted scanned inside size
    have kept := (source.size_readRow columns.toArray row buffer).trans size
    have more := yields_scan valid sorted scanned (row + 1) _ kept
    cases read : source.readRow columns.toArray row buffer with
    | mk flag after =>
      rw [read] at found shown more
      by_cases zero : isZeroTuple (source.storedTuple columns row) = true
      · obtain rfl : flag = false := by simpa [zero] using found
        rw [TupleRow.nonzeroFrom_of_zero inside zero]
        refine more.of_next_eq ?_
        rw [next, next, scanFrom, if_pos inside, read]
      · rw [Bool.not_eq_true] at zero
        obtain rfl : flag = true := by simpa [zero] using found
        have step : (scan source columns.toArray row buffer).next =
            (some ⟨row, source.storedTuple columns row⟩,
              scan source columns.toArray (row + 1) after) := by
          rw [next, scanFrom, if_pos inside, read, ← shown zero]
        rw [TupleRow.nonzeroFrom_of_nonzero inside zero, Yields, step]
        exact ⟨rfl, more⟩
  · rw [TupleRow.nonzeroFrom_of_le (by omega), Yields, next, scanFrom, if_neg inside]
termination_by source.rows - row

end PackedMatrix
