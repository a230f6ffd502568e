import PackedMatrix.Block
import PackedMatrix.Block.Layout

namespace PackedMatrix

/-- A block and whether it holds the transpose of the matrix it stands for. -/
structure Source where
  block : Block
  transposed : Bool
  deriving DecidableEq, Repr, Inhabited

namespace Source

def rows (source : Source) : Nat :=
  if source.transposed then source.block.cols else source.block.rows

def cols (source : Source) : Nat :=
  if source.transposed then source.block.rows else source.block.cols

/-- The cell of the matrix that the source stands for. -/
def cell (source : Source) (row col : Nat) : Cell :=
  if source.transposed then source.block.cell col row else source.block.cell row col

def get? (source : Source) (row col : Nat) : Option Cell :=
  if source.transposed then source.block.get? col row else source.block.get? row col

/-- Keeps the entries whose cell is not zero. -/
def dropZeros (entries : List (Nat × Cell)) : List (Nat × Cell) :=
  entries.filter (!·.2.isZero)

/-- The cells of a column that are not zero, with their rows. -/
def column (source : Source) (col : Nat) : List (Nat × Cell) :=
  let block := source.block
  match block.data, source.transposed with
  | .dense cells, false =>
    dropZeros ((List.range block.rows).map
      fun row => (row, cells.getD (row * block.cols + col) Cell.zero))
  | .dense cells, true =>
    Block.nonZeroEntries (block.denseRow cells col)
  | .sparse sparse, false =>
    dropZeros ((List.range block.rows).map fun row => (row, sparse.cell row col))
  | .sparse sparse, true => dropZeros (sparse.entries col)

/-- A column is empty when it shows no cell; of a transposed block, when its row is. A sparse row
that stores a zero is not empty, although it shows no cell. -/
def isColumnEmpty (source : Source) (col : Nat) : Bool :=
  if source.transposed then source.block.isRowEmpty col else (source.column col).isEmpty

end Source

namespace Block

/-- Copies chosen columns into a block of their own, in the layout that takes less space. -/
def selectColumns (block : Block) (columns : List Nat) (transposed : Bool) :
    Except PackError Block :=
  let source : Source := ⟨block, transposed⟩
  match columns.find? (fun col => !(col < source.cols)) with
  | some col => .error (.invalidMatrix (.columnRange col source.cols))
  | none =>
    let width := columns.length
    let cells := columns.zipIdx.foldl
      (fun cells choice => (source.column choice.1).foldl
        (fun cells entry => cells.setIfInBounds (entry.1 * width + choice.2) entry.2) cells)
      (Array.replicate (source.rows * width) Cell.zero)
    let copy : Block := ⟨source.rows, width, .dense cells⟩
    if copy.nonZeros * 12 + (source.rows + 1) * 8 < source.rows * width * 8 then .ok copy.toSparse
    else .ok copy

end Block

end PackedMatrix
