import PackedMatrix.Bitmap.Extract
import PackedMatrix.Group.SparseShape
import PackedMatrix.Plan

namespace PackedMatrix

/-- The numbers about a bitmap that decide the size of its group, so that the group need not be
built to know it. -/
structure CostProfile where
  rows : Nat
  columns : Nat
  tuples : Nat
  offsets : Nat
  zeros : Nat
  /-- The first of the most frequent tuples, and the number of its rows. -/
  largest : Option (Nat × Nat)
  /-- Words of the offset lists. -/
  offsetWords : Nat
  /-- Pairs of the run lists. -/
  runPairs : Nat
  /-- Cells that are not zero. -/
  nonZeros : Nat
  /-- The shape of sparse coding, with the bytes of its row index. -/
  sparse : Option (SparseShape × Nat)
  deriving DecidableEq, Repr

namespace CostProfile

def ofBitmap (bitmap : Bitmap) (rows offsetBlockSize : Nat) : CostProfile where
  rows := rows
  columns := bitmap.width
  tuples := bitmap.tuples
  offsets := bitmap.offsets
  zeros := bitmap.zeros rows
  largest := bitmap.largest?
  offsetWords := total (bitmap.lists.map (OffsetStreams.streamLength offsetBlockSize))
  runPairs := total (bitmap.lists.map RunStreams.pairCount)
  nonZeros := total (bitmap.lists.zipIdx.map fun entry =>
    (bitmap.tuple entry.2).countP (!·.isZero) * entry.1.length)
  sparse := (SparseShape.forBitmap? bitmap rows).map fun choice =>
    (choice.1, RowIndex.sizeOfRows (choice.1.explicitRows bitmap rows choice.2))

def isEmpty (profile : CostProfile) : Bool := profile.tuples == 0

def isConst (profile : CostProfile) : Bool := profile.tuples == 1 && profile.zeros == 0

/-- Bytes of a copy of the columns. -/
def uncompressedSize (profile : CostProfile) : Nat :=
  Group.baseSize profile.columns +
    Block.estimateSize profile.rows profile.columns profile.nonZeros

/-- Bytes of a group with so many tuples in a dictionary, and pointers to the streams of each. -/
def streamSize (profile : CostProfile) : Nat :=
  Group.baseSize profile.columns + Dictionary.estimateSize profile.tuples profile.columns +
    (profile.tuples + 1) * 4

/-- Bytes of the group that is built when an encoding is asked for, if there is one. A dense group
has a code for every row, and so a tuple of zeros if any row is zero. -/
def sizeOf (profile : CostProfile) (encoding : Encoding) : Option Nat :=
  if profile.isEmpty then some (Group.baseSize profile.columns)
  else if profile.isConst then some (Group.constSize profile.columns)
  else
    match encoding with
    | .empty | .const => none
    | .ddc =>
      let tuples := profile.tuples + if profile.zeros > 0 then 1 else 0
      some (Group.baseSize profile.columns + Dictionary.estimateSize tuples profile.columns +
        CodeMap.estimateSize profile.rows tuples)
    | .ole => some (profile.streamSize + profile.offsetWords * 2)
    | .rle => some (profile.streamSize + profile.runPairs * 4)
    | .sdc =>
      match profile.sparse, profile.largest with
      | some (shape, indexSize), some (_, largest) =>
        some (shape.estimateSize profile.rows profile.columns profile.tuples profile.zeros largest
          indexSize)
      | _, _ => none
    | .uncompressed => some profile.uncompressedSize

end CostProfile

/-- An encoding with the bytes it takes. -/
structure EncodingCost where
  encoding : Encoding
  size : Nat
  deriving DecidableEq, Repr

/-- The costs of a column set. -/
structure ColumnCosts where
  columns : List Nat
  profile : CostProfile
  /-- Bytes in each enabled encoding, in the order of the encodings. -/
  sizes : List EncodingCost
  best : EncodingCost
  deriving DecidableEq, Repr

namespace ColumnCosts

/-- Replaces the best cost so far only by a smaller one. -/
def smaller (best : Option EncodingCost) (cost : EncodingCost) : Option EncodingCost :=
  match best with
  | none => some cost
  | some known => if known.size ≤ cost.size then best else some cost

def ofProfile (columns : List Nat) (profile : CostProfile) (settings : Settings) : ColumnCosts :=
  let sizes := (Settings.orderedEncodings settings.encodings).filterMap fun encoding =>
    (profile.sizeOf encoding).map fun size => ⟨encoding, size⟩
  { columns, profile, sizes
    best := (sizes.foldl smaller none).getD ⟨.uncompressed, profile.uncompressedSize⟩ }

def uncompressedSize (costs : ColumnCosts) : Nat := costs.profile.uncompressedSize

/-- Some enabled encoding takes less space than a copy of the columns. -/
def isCompressible (costs : ColumnCosts) : Bool := costs.best.size < costs.uncompressedSize

/-- Bytes in the given encoding, if it is enabled and possible. -/
def sizeOf? (costs : ColumnCosts) (encoding : Encoding) : Option Nat :=
  (costs.sizes.find? (·.encoding == encoding)).map EncodingCost.size

def ofColumns (source : Source) (settings : Settings) (columns : List Nat) :
    Except PackError ColumnCosts := do
  let bitmap ← Bitmap.extract columns source
  let profile := CostProfile.ofBitmap bitmap source.rows settings.offsetBlockSize
  pure (ofProfile columns profile settings)

/-- The costs of every column on its own, in column order. -/
def ofSource (source : Source) (settings : Settings) (pool : Pool := .caller) :
    Except PackError (List ColumnCosts) :=
  pool.collect (fun column => ofColumns source settings [column]) (List.range source.cols)

def compressibleCount (costs : List ColumnCosts) : Nat := costs.countP isCompressible

/-- Bytes if every column set takes its best form. -/
def estimatedSize (costs : List ColumnCosts) : Nat :=
  total (costs.map fun cost => min cost.best.size cost.uncompressedSize)

/-- Every compressible column set on its own, in its cheapest encoding. -/
def cheapestPlans (costs : List ColumnCosts) : List ColumnPlan :=
  (costs.filter isCompressible).map fun cost => ⟨cost.columns, cost.best.encoding⟩

end ColumnCosts

end PackedMatrix
