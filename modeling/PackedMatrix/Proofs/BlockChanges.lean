import PackedMatrix.Proofs.Triplets

namespace PackedMatrix

namespace Block

/-- Accepted blocks and the matrices that they were made of. -/
inductive MadeOf : Block → Grid → Prop
  | dense {rows cols : Nat} {cells : Array Cell} {block : Block}
    (made : Block.dense rows cols cells = .ok block) :
    MadeOf block ⟨rows, cols, fun row col => cells.getD (row * cols + col) Cell.zero⟩
  | ofRows {lists : Array (Array Cell)} {block : Block} (made : Block.ofRows lists = .ok block) :
    MadeOf block ⟨lists.size, (lists[0]?.map Array.size).getD 0,
      fun row col => (lists.getD row #[]).getD col Cell.zero⟩
  | ofTriplets {rows cols : Nat} {triplets : List Triplet} {block : Block}
    (made : Block.ofTriplets rows cols triplets = .ok block) :
    MadeOf block (Triplet.grid rows cols triplets)

theorem dense_eq_ok_iff {rows cols : Nat} {cells : Array Cell} {block : Block} :
    Block.dense rows cols cells = .ok block ↔
      cells.size = rows * cols ∧ block = ⟨rows, cols, .dense cells⟩ := by
  unfold Block.dense
  split
  next size => exact ⟨fun h => ⟨size, by cases h; rfl⟩, fun both => by rw [both.2]⟩
  next other => exact ⟨fun h => (nomatch h), fun both => absurd both.1 other⟩

/-- Lists of the same length, one behind the other, are found by their number and their length. -/
theorem getD_flatten {lists : Array (Array Cell)} {width row col : Nat}
    (equal : ∀ list ∈ lists, list.size = width) (inRow : row < lists.size) (inCol : col < width) :
    lists.flatten.getD (row * width + col) Cell.zero = (lists.getD row #[]).getD col Cell.zero := by
  have bound : row < (lists.toList.map Array.toList).length := by simpa using inRow
  have widths : ∀ list ∈ lists.toList.map Array.toList, list.length = width := by
    intro list member
    obtain ⟨stored, listed, rfl⟩ := List.mem_map.mp member
    exact equal stored (Array.mem_toList_iff.mp listed)
  have within := widths _ (List.getElem_mem bound)
  have found := Segments.getElem?_flatten bound (show col < _ by rw [within]; exact inCol)
  rw [Segments.offset_of_width widths (Nat.le_of_lt bound), ← Array.toList_flatten,
    Array.getElem?_toList] at found
  have size : lists[row].size = width := equal _ (Array.getElem_mem inRow)
  have inList : col < lists[row].size := by rwa [size]
  simp [Array.getD_eq_getD_getElem?, found, inRow, inList]

theorem MadeOf.holds {block : Block} {grid : Grid} (made : MadeOf block grid) :
    block.Holds grid := by
  cases made with
  | dense made =>
    obtain ⟨size, rfl⟩ := dense_eq_ok_iff.mp made
    exact ⟨(wellFormed_dense rfl).mpr size, rfl, rfl, (fun _ other => nomatch other),
      fun _ _ _ _ => rfl⟩
  | @ofRows lists _ made =>
    unfold Block.ofRows at made
    simp only at made
    split at made
    next => cases made
    next found =>
      obtain ⟨size, rfl⟩ := dense_eq_ok_iff.mp made
      have equal : ∀ list ∈ lists, list.size = (lists[0]?.map Array.size).getD 0 := by
        intro list member
        simpa using Array.findIdx?_eq_none_iff.mp found list member
      refine ⟨(wellFormed_dense rfl).mpr size, rfl, rfl, (fun _ other => nomatch other), ?_⟩
      exact fun row col inRow inCol => getD_flatten equal inRow inCol
  | ofTriplets made => exact (holds_of_ofTriplets made).1

/-- Whatever the order, every row is filled with a column of the block. -/
theorem Holds.transposeBy {block : Block} {grid : Grid} (holds : block.Holds grid)
    (indexable : grid.rows ≤ maxIndex ∧ grid.cols ≤ maxIndex) {order : List Nat}
    (every : order.Perm (List.range grid.cols)) :
    (block.transposeBy order).Holds grid.transpose := by
  rw [transposeBy_eq (holds.cols ▸ every)]
  exact holds.transpose indexable.1 indexable.2

/-- One change of a block. -/
inductive Change
  | toSparse
  | toDense
  | transpose
  /-- A transpose by several workers, who fill the rows in some order. -/
  | transposeBy (order : List Nat)
  /-- Columns of the block, or of the matrix whose transpose it is. -/
  | select (columns : List Nat) (transposed : Bool)

namespace Change

def run (block : Block) : Change → Except PackError Block
  | toSparse => .ok block.toSparse
  | toDense => .ok block.toDense
  | transpose => .ok block.transpose
  | transposeBy order => .ok (block.transposeBy order)
  | select columns transposed => block.selectColumns columns transposed

/-- What a change makes of a matrix. -/
def apply (grid : Grid) : Change → Grid
  | toSparse => grid
  | toDense => grid
  | transpose => grid.transpose
  | transposeBy _ => grid.transpose
  | select columns transposed => (grid.seen transposed).select columns

/-- Workers fill each row once; selected columns are inside, and their places fit 32 bits. -/
def Fits (grid : Grid) : Change → Prop
  | toSparse => True
  | toDense => True
  | transpose => True
  | transposeBy order => order.Perm (List.range grid.cols)
  | select columns transposed =>
    columns.length ≤ maxIndex ∧ ∀ col ∈ columns, col < (grid.seen transposed).cols

/-- Each change fits what those before it have made of the matrix. -/
def AllFit (grid : Grid) : List Change → Prop
  | [] => True
  | change :: rest => change.Fits grid ∧ AllFit (change.apply grid) rest

instance decidableFits (grid : Grid) : (change : Change) → Decidable (change.Fits grid)
  | toSparse => .isTrue trivial
  | toDense => .isTrue trivial
  | transpose => .isTrue trivial
  | transposeBy order => inferInstanceAs (Decidable (order.Perm (List.range grid.cols)))
  | select columns transposed => inferInstanceAs (Decidable
    (columns.length ≤ maxIndex ∧ ∀ col ∈ columns, col < (grid.seen transposed).cols))

instance decidableAllFit (grid : Grid) : (changes : List Change) → Decidable (AllFit grid changes)
  | [] => .isTrue trivial
  | change :: rest =>
    have := decidableAllFit (change.apply grid) rest
    inferInstanceAs (Decidable (change.Fits grid ∧ AllFit (change.apply grid) rest))

variable {block : Block} {grid : Grid} {change : Change} {changes : List Change}

theorem AllFit.take (fit : AllFit grid changes) (count : Nat) :
    AllFit grid (changes.take count) := by
  induction changes generalizing grid count with
  | nil => rwa [List.take_nil]
  | cons change rest ih =>
    cases count with
    | zero => trivial
    | succ count => exact ⟨fit.1, ih fit.2 count⟩

theorem apply_le (fits : change.Fits grid)
    (indexable : grid.rows ≤ maxIndex ∧ grid.cols ≤ maxIndex) :
    (change.apply grid).rows ≤ maxIndex ∧ (change.apply grid).cols ≤ maxIndex := by
  cases change with
  | toSparse => exact indexable
  | toDense => exact indexable
  | transpose => exact indexable.symm
  | transposeBy order => exact indexable.symm
  | select columns transposed =>
    refine ⟨?_, fits.1⟩
    cases transposed with
    | false => exact indexable.1
    | true => exact indexable.2

/-- A change that fits succeeds, and the block holds the changed matrix. -/
theorem exists_run (holds : block.Holds grid)
    (indexable : grid.rows ≤ maxIndex ∧ grid.cols ≤ maxIndex) (fits : change.Fits grid) :
    ∃ next, change.run block = .ok next ∧ next.Holds (change.apply grid) := by
  cases change with
  | toSparse => exact ⟨_, rfl, holds.toSparse indexable.2⟩
  | toDense => exact ⟨_, rfl, holds.toDense indexable.2⟩
  | transpose => exact ⟨_, rfl, holds.transpose indexable.1 indexable.2⟩
  | transposeBy order => exact ⟨_, rfl, holds.transposeBy indexable fits⟩
  | select columns transposed =>
    exact holds.exists_selectColumns indexable.1 indexable.2 fits.1 fits.2

theorem exists_foldlM_run (holds : block.Holds grid)
    (indexable : grid.rows ≤ maxIndex ∧ grid.cols ≤ maxIndex) (fit : AllFit grid changes) :
    ∃ result, changes.foldlM run block = .ok result ∧
      result.Holds (changes.foldl apply grid) ∧
        (changes.foldl apply grid).cols ≤ maxIndex := by
  induction changes generalizing block grid with
  | nil => exact ⟨block, rfl, holds, indexable.2⟩
  | cons change rest ih =>
    obtain ⟨next, made, holds'⟩ := exists_run holds indexable fit.1
    obtain ⟨result, later, rest_⟩ := ih holds' (apply_le fit.1 indexable) fit.2
    exact ⟨result, by rw [List.foldlM_cons, made]; exact later, rest_⟩

/-- After any number of changes of an accepted block the storage is valid and a sparse block stores
no zero. The cells, the number of those that are not zero, and the rows that count as empty are
those that the same changes make of the matrix of the block. -/
theorem foldlM_run_shows (made : MadeOf block grid) (short : grid.rows ≤ maxIndex)
    (narrow : grid.cols ≤ maxIndex) (fit : AllFit grid changes) (count : Nat) :
    ∃ result matrix, (changes.take count).foldlM run block = .ok result ∧
      (changes.take count).foldl apply grid = matrix ∧ result.validate = .ok () ∧
      (∀ sparse, result.data = .sparse sparse → Cell.zero ∉ sparse.values) ∧
      result.rows = matrix.rows ∧ result.cols = matrix.cols ∧
      (∀ row col, result.get? row col = matrix.get? row col) ∧
      result.nonZeros = matrix.nonZeros ∧
      ∀ row, row < matrix.rows → (result.isRowEmpty row = true ↔
        ∀ col, col < matrix.cols → matrix.cell row col = Cell.zero) := by
  obtain ⟨result, run, holds, narrow'⟩ :=
    exists_foldlM_run made.holds ⟨short, narrow⟩ (fit.take count)
  exact ⟨result, _, run, rfl, holds.fits.validate, holds.free, holds.rows, holds.cols,
    holds.get?_eq, holds.nonZeros_eq narrow', fun row inRow => holds.isRowEmpty_iff narrow' inRow⟩

/-- Columns of a transposed matrix are picked, one of them twice, and the copy is made sparse. -/
def twicePicked : List Change :=
  [.toDense, .transposeBy [2, 0, 1], .select [2, 0, 2] true, .toSparse]

/-- The negative zero is stored at both places, and the first row stores nothing. -/
theorem foldlM_run_shows_twicePicked : ∃ block result,
    Block.ofTriplets 2 3 zeroLast = .ok block ∧
      AllFit (Triplet.grid 2 3 zeroLast) twicePicked ∧
      twicePicked.foldlM run block = .ok result ∧ result.validate = .ok () ∧
      result.get? 1 0 = some ⟨0x8000000000000000⟩ ∧ result.get? 1 1 = some ⟨5⟩ ∧
      result.get? 1 2 = some ⟨0x8000000000000000⟩ ∧ result.get? 1 3 = none ∧
      result.nonZeros = 3 ∧ result.isRowEmpty 0 = true := by
  have made : Block.ofTriplets 2 3 zeroLast =
      .ok (Triplet.grid 2 3 zeroLast).block.toSparse :=
    ofTriplets_eq (by decide) (by decide) (by decide)
  have fit : AllFit (Triplet.grid 2 3 zeroLast) twicePicked := by decide
  obtain ⟨result, _, run, rfl, valid, _, _, _, shown, count, empty⟩ :=
    foldlM_run_shows (.ofTriplets made) (by decide) (by decide) fit 4
  refine ⟨_, result, made, fit, run, valid, ?_, ?_, ?_, ?_, ?_, ?_⟩
  · rw [shown]
    decide
  · rw [shown]
    decide
  · rw [shown]
    decide
  · rw [shown]
    decide
  · rw [count]
    decide
  · rw [empty 0 (by decide)]
    decide

end Change

end Block

end PackedMatrix
