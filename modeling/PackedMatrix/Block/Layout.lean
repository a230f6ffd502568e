import PackedMatrix.Block
import PackedMatrix.Workers

namespace PackedMatrix

namespace Block

/-- Writes the stored cells of one row into a row-by-row buffer. -/
def writeEntries (width row : Nat) (buffer : Array Cell) (entries : List (Nat × Cell)) :
    Array Cell :=
  entries.foldl (fun cells entry => cells.setIfInBounds (row * width + entry.1) entry.2) buffer

/-- The same block with every cell stored. -/
def toDense (block : Block) : Block :=
  match block.data with
  | .dense _ => block
  | .sparse sparse =>
    let cells := (List.range block.rows).foldl
      (fun cells row => writeEntries block.cols row cells (sparse.entries row))
      (Array.replicate (block.rows * block.cols) Cell.zero)
    { block with data := .dense cells }

/-- The cells of a row that are not zero, with their columns. -/
def nonZeroEntries (cells : Array Cell) : List (Nat × Cell) :=
  (cells.toList.zipIdx.filter (!·.1.isZero)).map fun entry => (entry.2, entry.1)

/-- Cuts cells into rows of the given width; the last one may be short. -/
def chunks (width : Nat) (cells : Array Cell) : List (Array Cell) :=
  (List.range ((cells.size + width - 1) / width)).map
    fun i => cells.extract (i * width) ((i + 1) * width)

/-- The same block with only its non-zero cells stored. A row that has no cells has an empty
range. -/
def toSparse (block : Block) : Block :=
  match block.data with
  | .sparse _ => block
  | .dense cells =>
    let rows := (chunks (max block.cols 1) cells).take block.rows
    let stored := SparseRows.ofEntries (rows.map nonZeroEntries)
    let missing := Array.replicate (block.rows + 1 - stored.rowPtr.size) 0
    { block with data := .sparse { stored with rowPtr := stored.rowPtr ++ missing } }

/-- The stored cells with their places, row by row. -/
def storedTriplets (rows : Nat) (sparse : SparseRows) : List Triplet :=
  (List.range rows).flatMap fun row =>
    (sparse.entries row).map fun entry => ⟨row, entry.1, entry.2⟩

/-- Cells on their way to their columns: the slot of the next cell of each column, and the rows and
values that are in their slots. -/
structure Placing where
  next : Array Nat
  colIdx : Array UInt32
  values : Array Cell

/-- Puts a cell into the next slot of its column. -/
def Placing.put (placing : Placing) (t : Triplet) : Placing :=
  let slot := placing.next.getD t.col 0
  { next := placing.next.modify t.col (· + 1)
    colIdx := placing.colIdx.setIfInBounds slot (UInt32.ofNat t.row)
    values := placing.values.setIfInBounds slot t.value }

/-- The stored cells sorted by column, by counting. Slots of cells that no row owns stay zero. -/
def swapSparse (rows cols : Nat) (sparse : SparseRows) : SparseRows :=
  let pointers := CountingSort.starts cols (sparse.colIdx.toList.map UInt32.toNat)
  let size := sparse.values.size
  let placed := (storedTriplets rows sparse).foldl Placing.put
    ⟨pointers, Array.replicate size 0, Array.replicate size Cell.zero⟩
  ⟨pointers, placed.colIdx, placed.values⟩

/-- The block with rows and columns swapped, in the same layout. -/
def transpose (block : Block) : Block :=
  match block.data with
  | .dense cells =>
    let cellAt (i : Nat) : Cell :=
      cells.getD (i % block.rows * block.cols + i / block.rows) Cell.zero
    ⟨block.cols, block.rows, .dense (Array.ofFn fun i : Fin (block.cols * block.rows) => cellAt i)⟩
  | .sparse sparse =>
    ⟨block.cols, block.rows, .sparse (swapSparse block.rows block.cols sparse)⟩

/-- The writes that fill one row of the transpose of some cells. -/
def fillWrites (rows cols : Nat) (cells : Array Cell) (col : Nat) : List (Nat × Cell) :=
  (List.range rows).map fun row =>
    (col * rows + row, cells.getD (row * cols + col) Cell.zero)

/-- The transpose as several workers make it: the rows of a dense one are filled in some order. -/
def transposeBy (block : Block) (order : List Nat) : Block :=
  match block.data with
  | .dense cells =>
    ⟨block.cols, block.rows, .dense ((order.flatMap (fillWrites block.rows block.cols cells)).foldl
      (fun buffer write => buffer.setIfInBounds write.1 write.2)
      (Array.replicate (block.rows * block.cols) Cell.zero))⟩
  | .sparse _ => block.transpose

/-- The transpose as workers make it. -/
def transposeOn (pool : Pool) (block : Block) : Block := block.transposeBy (pool.order block.cols)

end Block

end PackedMatrix
