import PackedMatrix.Group
import PackedMatrix.Merge

namespace PackedMatrix

/-- Which rows are listed and whether they have codes. Rows with the default tuple are not listed;
this is the zero tuple unless another tuple is held by more rows. -/
inductive SparseShape
  /-- The rows of the only tuple. -/
  | singleZeros
  /-- The zero rows; the only tuple is the default. -/
  | single
  /-- All rows that are not zero, with codes. -/
  | zeros
  /-- All rows outside the most frequent tuple, with codes. -/
  | general
  deriving DecidableEq, Repr, Inhabited

namespace SparseShape

def name : SparseShape → String
  | singleZeros => "SingleZeros"
  | single => "Single"
  | zeros => "Zeros"
  | general => "General"

/-- The shape that lists the fewest rows. -/
def choose (tuples zeroRows largest : Nat) : SparseShape :=
  if tuples = 1 then
    if zeroRows ≥ largest then singleZeros else single
  else
    if zeroRows ≥ largest then zeros else general

/-- The shape for a bitmap, with its most frequent tuple. -/
def forBitmap? (bitmap : Bitmap) (rows : Nat) : Option (SparseShape × Nat) :=
  bitmap.largest?.map fun largest =>
    (choose bitmap.tuples (bitmap.zeros rows) largest.2, largest.1)

/-- Bytes of a group of this shape, given those of its row index. -/
def estimateSize (shape : SparseShape) (rows columns tuples zeroRows largest indexSize : Nat) :
    Nat :=
  let base := Group.baseSize columns + indexSize
  let zeroTuple := if zeroRows > 0 then 1 else 0
  match shape with
  | singleZeros => base + Dictionary.estimateSize 1 columns
  | single => base + Dictionary.estimateSize (1 + zeroTuple) columns
  | zeros =>
    base + Dictionary.estimateSize tuples columns + CodeMap.estimateSize (rows - zeroRows) tuples
  | general =>
    base + Dictionary.estimateSize (tuples + zeroTuple) columns +
      CodeMap.estimateSize (rows - largest) tuples

def complement (count row : Nat) (list : List Nat) (rows : Array Nat) : Array Nat :=
  match count with
  | 0 => rows
  | count + 1 =>
    match list with
    | next :: rest =>
      if next = row then complement count (row + 1) rest rows
      else complement count (row + 1) list (rows.push row)
    | [] => complement count (row + 1) [] (rows.push row)

def covered (rows : Nat) (lists : List (List Nat)) : List Nat :=
  let present := (lists.flatMap id).foldl (fun present row => present.setIfInBounds row true)
    (Array.replicate rows false)
  (present.toList.zipIdx.filter Prod.fst).map Prod.snd

/-- The rows that a group of this shape lists, in order. -/
def explicitRows (shape : SparseShape) (bitmap : Bitmap) (rows frequent : Nat) : List Nat :=
  match shape with
  | singleZeros => bitmap.list 0
  | single => (complement rows 0 (bitmap.list 0) #[]).toList
  | general => (complement rows 0 (bitmap.list frequent) #[]).toList
  | zeros => covered rows bitmap.lists

/-- The body of a sparse group for a bitmap. Lists are merged by the strategy that suits the number
of rows to be listed, zero rows among them. -/
def encode (bitmap : Bitmap) (rows : Nat) : Except PackError GroupBody :=
  match forBitmap? bitmap rows with
  | none => .error (.invariant .noSparseTuple)
  | some (.singleZeros, _) =>
    .ok (.sdcSingleZeros (.ofBitmap bitmap) (.ofRows (bitmap.list 0)))
  | some (.single, frequent) => do
    let moved ← (Dictionary.ofBitmap bitmap).moveFrequentToLast bitmap rows frequent
    let listed := explicitRows .single bitmap rows frequent
    pure (.sdcSingle moved.dictionary (.ofRows listed))
  | some (.zeros, _) => do
    let merged ← (Merger.forEntries bitmap.offsets rows).insert bitmap.lists
    pure (.sdcZeros (.ofBitmap bitmap) (.ofRows merged.rows.toList) merged.codes)
  | some (.general, frequent) => do
    let moved ← (Dictionary.ofBitmap bitmap).moveFrequentToLast bitmap rows frequent
    let merger := Merger.forEntries (rows - (bitmap.list frequent).length) rows
    let merged ← merger.insertExcluding bitmap.lists frequent
    pure (.sdc moved.dictionary (.ofRows merged.rows.toList) merged.codes)

end SparseShape

end PackedMatrix
