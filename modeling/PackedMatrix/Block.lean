import PackedMatrix.Cell
import PackedMatrix.CountingSort
import PackedMatrix.Error
import PackedMatrix.Fault
import PackedMatrix.Search

namespace PackedMatrix

/-- Rows of stored cells: row `r` owns the positions from `rowPtr[r]` up to `rowPtr[r + 1]`. -/
structure SparseRows where
  rowPtr : Array Nat
  colIdx : Array UInt32
  values : Array Cell
  deriving DecidableEq, Repr, Inhabited

namespace SparseRows

def rowStart (sparse : SparseRows) (row : Nat) : Nat := sparse.rowPtr.getD row 0

def rowEnd (sparse : SparseRows) (row : Nat) : Nat := sparse.rowPtr.getD (row + 1) 0

def rowColumns (sparse : SparseRows) (row : Nat) : List Nat :=
  (sparse.colIdx.extract (sparse.rowStart row) (sparse.rowEnd row)).toList.map UInt32.toNat

/-- The stored cells of one row with their columns. -/
def entries (sparse : SparseRows) (row : Nat) : List (Nat × Cell) :=
  (sparse.rowColumns row).zip
    (sparse.values.extract (sparse.rowStart row) (sparse.rowEnd row)).toList

/-- The cells that so many rows own, row by row. -/
def ownedValues (sparse : SparseRows) (rows : Nat) : Array Cell :=
  (List.range rows).foldl
    (fun cells row => cells ++ sparse.values.extract (sparse.rowStart row) (sparse.rowEnd row)) #[]

/-- The cell at a position: the stored one, found by its column, or zero. Columns are looked up by
their low 32 bits, as they are stored. -/
def cell (sparse : SparseRows) (row col : Nat) : Cell :=
  let start := sparse.rowStart row
  let target := col % UInt32.size
  let position := Search.find?
    (fun i => compare (sparse.colIdx.getD (start + i) 0).toNat target)
    (sparse.rowEnd row - start)
  match position with
  | some i => sparse.values.getD (start + i) Cell.zero
  | none => Cell.zero

/-- The cell at a position as `cell` finds it, from arrays that may not fit together. -/
def fetch (sparse : SparseRows) (row col : Nat) : Except Fault Cell := do
  let first ← Fault.found sparse.rowPtr[row]?
  let last ← Fault.found sparse.rowPtr[row + 1]?
  if first ≤ last ∧ last ≤ sparse.colIdx.size ∧ last ≤ sparse.values.size then
    match Search.find? (fun i =>
      compare (sparse.colIdx.getD (first + i) 0).toNat (col % UInt32.size)) (last - first) with
    | some i => Fault.found sparse.values[first + i]?
    | none => .ok Cell.zero
  else .error .outOfRange

/-- The rows that hold the given cells, in the given order. -/
def ofEntries (rows : List (List (Nat × Cell))) : SparseRows where
  rowPtr := rows.foldl (fun pointers row => pointers.push (pointers.back?.getD 0 + row.length)) #[0]
  colIdx := (rows.flatMap fun row => row.map fun entry => UInt32.ofNat entry.1).toArray
  values := (rows.flatMap fun row => row.map Prod.snd).toArray

/-- Bytes held: a cell, a column number and a row pointer take eight, four and eight. -/
def size (sparse : SparseRows) : Nat :=
  sparse.values.size * 8 + sparse.colIdx.size * 4 + sparse.rowPtr.size * 8

/-- Columns of a row increase and stay below the width. -/
def rowFits (sparse : SparseRows) (cols row : Nat) : Bool :=
  let columns := sparse.rowColumns row
  decide (columns.Pairwise (· < ·)) && columns.all (· < cols)

end SparseRows

/-- The layout of a block: all cells row by row, or those of each row that matter. The second may
hold zero cells. -/
inductive BlockData
  | dense (cells : Array Cell)
  | sparse (rows : SparseRows)
  deriving DecidableEq, Repr, Inhabited

/-- An uncompressed matrix. -/
structure Block where
  rows : Nat
  cols : Nat
  data : BlockData
  deriving DecidableEq, Repr, Inhabited

namespace Block

/-- A block of the given shape from its cells, row by row. -/
def dense (rows cols : Nat) (cells : Array Cell) : Except PackError Block :=
  if cells.size = rows * cols then .ok ⟨rows, cols, .dense cells⟩
  else .error (.invalidMatrix (.valueCount rows cols cells.size))

/-- A block from rows of equal length; the first row sets the width. -/
def ofRows (rows : Array (Array Cell)) : Except PackError Block :=
  let width := (rows[0]?.map Array.size).getD 0
  match rows.findIdx? (·.size != width) with
  | some i => .error (.invalidMatrix (.rowLength i (rows.getD i #[]).size width))
  | none => dense rows.size width rows.flatten

/-- A cell with its place. -/
structure Triplet where
  row : Nat
  col : Nat
  value : Cell
  deriving DecidableEq, Repr, Inhabited

namespace Triplet

/-- Places are ordered by row and then by column. -/
def le (a b : Triplet) : Bool := a.row < b.row || (a.row == b.row && a.col ≤ b.col)

def samePlace (a b : Triplet) : Bool := a.row == b.row && a.col == b.col

/-- The first place that two neighbours share. -/
def firstRepeated : List Triplet → Option Triplet
  | a :: b :: rest => if samePlace a b then some a else firstRepeated (b :: rest)
  | _ => none

end Triplet

/-- A sparse block from cells with their places, given in any order; zeros are dropped and a place
given twice is refused, also if one of its cells is zero. -/
def ofTriplets (rows cols : Nat) (triplets : List Triplet) : Except PackError Block :=
  match triplets.find? (fun t => !(t.row < rows && t.col < cols)) with
  | some t => .error (.invalidMatrix (.outside t.row t.col rows cols))
  | none =>
    if cols > maxIndex then .error (.invalidMatrix (.columnLimit cols))
    else
      let sorted := triplets.mergeSort Triplet.le
      match Triplet.firstRepeated sorted with
      | some t => .error (.invalidMatrix (.repeated t.row t.col))
      | none =>
        let kept := sorted.filter (!·.value.isZero)
        .ok ⟨rows, cols, .sparse
          { rowPtr := CountingSort.starts rows (kept.map (·.row))
            colIdx := (kept.map fun t => UInt32.ofNat t.col).toArray
            values := (kept.map (·.value)).toArray }⟩

def isSparse (block : Block) : Bool :=
  match block.data with
  | .dense _ => false
  | .sparse _ => true

/-- The storage matches the shape. -/
def validate (block : Block) : Except PackError Unit :=
  match block.data with
  | .dense cells =>
    if cells.size = block.rows * block.cols then .ok ()
    else .error (.invalidMatrix (.denseCount cells.size block.rows block.cols))
  | .sparse sparse =>
    let pointers := sparse.rowPtr.toList
    if sparse.rowPtr.size ≠ block.rows + 1 ∨ sparse.rowPtr[0]? ≠ some 0 then
      .error (.invalidMatrix .rowPointerCount)
    else if !(pointers.zip (pointers.drop 1)).all (fun pair => pair.1 ≤ pair.2) then
      .error (.invalidMatrix .rowPointerOrder)
    else if sparse.rowStart block.rows ≠ sparse.colIdx.size ∨
        sparse.rowStart block.rows ≠ sparse.values.size then
      .error (.invalidMatrix .rowPointerEnd)
    else
      match (List.range block.rows).find? (fun row => !sparse.rowFits block.cols row) with
      | some row => .error (.invalidMatrix (.rowColumns row))
      | none => .ok ()

/-- The number of stored cells, and for a dense block of those that are not zero. -/
def nonZeros (block : Block) : Nat :=
  match block.data with
  | .dense cells => cells.countP (!·.isZero)
  | .sparse sparse => sparse.values.size

/-- The cell at a place of the block. -/
def cell (block : Block) (row col : Nat) : Cell :=
  match block.data with
  | .dense cells => cells.getD (row * block.cols + col) Cell.zero
  | .sparse sparse => sparse.cell row col

/-- The cell at a place of a block whose storage may not match the shape. -/
def fetch (block : Block) (row col : Nat) : Except Fault Cell :=
  match block.data with
  | .dense cells => Fault.found cells[row * block.cols + col]?
  | .sparse sparse => sparse.fetch row col

/-- The cell at a place, if the place lies inside. -/
def get? (block : Block) (row col : Nat) : Option Cell :=
  if row < block.rows ∧ col < block.cols then some (block.cell row col) else none

def denseRow (block : Block) (cells : Array Cell) (row : Nat) : Array Cell :=
  cells.extract (row * block.cols) ((row + 1) * block.cols)

/-- A dense row is empty when its cells are zero, a sparse row when it stores none. -/
def isRowEmpty (block : Block) (row : Nat) : Bool :=
  match block.data with
  | .dense cells => (block.denseRow cells row).all Cell.isZero
  | .sparse sparse => (sparse.rowColumns row).isEmpty

/-- Bytes of bookkeeping for every block. -/
def headerSize : Nat := 48

/-- Bytes that the block takes. -/
def size (block : Block) : Nat :=
  headerSize + match block.data with
    | .dense cells => cells.size * 8
    | .sparse sparse => sparse.size

/-- Bytes that a block of this shape takes in the cheaper of its layouts. -/
def estimateSize (rows cols nonZeros : Nat) : Nat :=
  headerSize + min (rows * cols * 8) (nonZeros * 12 + (rows + 1) * 8)

/-- Blocks agree when layout and numbers do; a NaN agrees with nothing. -/
def sameNumbers (a b : Block) : Bool :=
  a.rows == b.rows && a.cols == b.cols &&
    match a.data, b.data with
    | .dense x, .dense y => x.isEqv y Cell.sameNumber
    | .sparse x, .sparse y =>
      x.rowPtr == y.rowPtr && x.colIdx == y.colIdx && x.values.isEqv y.values Cell.sameNumber
    | _, _ => false

end Block

end PackedMatrix
