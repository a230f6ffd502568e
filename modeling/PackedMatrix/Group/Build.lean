import PackedMatrix.Bitmap.Extract
import PackedMatrix.Group.SparseShape
import PackedMatrix.Plan

namespace PackedMatrix

namespace Group

/-- The body of dense dictionary coding: rows of no list get the code of an added zero tuple. -/
def encodeDense (bitmap : Bitmap) (rows : Nat) : GroupBody :=
  let hasZeros := bitmap.zeros rows > 0
  let plain := Dictionary.ofBitmap bitmap
  let dictionary := if hasZeros then plain.withZeroTuple else plain
  let blank := CodeMap.create rows dictionary.tuples
  let start := if hasZeros then blank.fill bitmap.tuples else blank
  .ddc dictionary <| bitmap.lists.zipIdx.foldl
    (fun codes entry => entry.1.foldl (fun codes row => codes.set row entry.2) codes) start

/-- The body in the encoding that was asked for. -/
def encodeAs (encoding : Encoding) (columns : List Nat) (rows : Nat) (bitmap : Bitmap)
    (settings : Settings) (source : Source) : Except PackError GroupBody :=
  match encoding with
  | .ddc => do
    let _ ← (Dictionary.ofBitmap bitmap).count.mapError .fault
    pure (encodeDense bitmap rows)
  | .ole => do
    let offsets ← OffsetStreams.ofBitmap bitmap settings.offsetBlockSize
    pure (.ole (.ofBitmap bitmap) offsets)
  | .rle => do
    let runs ← RunStreams.ofBitmap bitmap
    pure (.rle (.ofBitmap bitmap) runs)
  | .sdc => SparseShape.encode bitmap rows
  | .uncompressed =>
    if source.rows ≠ rows then .error (.invariant (.rawRows source.rows rows))
    else do
      let block ← source.block.selectColumns columns source.transposed
      pure (.uncompressed block)
  | .empty | .const => .error (.unsupported columns encoding bitmap.tuples bitmap.offsets rows)

/-- A group whose rows all hold the only tuple of a dictionary. -/
def const (columns : List Nat) (rows : Nat) (dictionary : Dictionary) :
    Except PackError Group := do
  let tuples ← dictionary.count.mapError .fault
  if tuples ≠ 1 then .error (.invariant (.constNeedsOne tuples))
  else .ok ⟨columns, rows, .const dictionary⟩

/-- A group for a bitmap that has been checked. Columns that are all zero, and columns whose rows
all hold one tuple, get an encoding of their own whatever was asked for; sorting tuples is of no use
there, as there is one at most. -/
def encode (columns : List Nat) (rows : Nat) (bitmap : Bitmap) (encoding : Encoding)
    (settings : Settings) (source : Source) : Except PackError Group :=
  if bitmap.lists.isEmpty then .ok ⟨columns, rows, .empty⟩
  else if bitmap.tuples = 1 ∧ (bitmap.list 0).length = rows then
    Group.const columns rows (.ofBitmap bitmap)
  else do
    let sorted := if settings.sortByFrequency then bitmap.sortByFrequency else bitmap
    let body ← encodeAs encoding columns rows sorted settings source
    pure ⟨columns, rows, body⟩

/-- A group over columns with the given bitmap. -/
def ofBitmap (columns : List Nat) (rows : Nat) (bitmap : Bitmap) (encoding : Encoding)
    (settings : Settings) (source : Source) : Except PackError Group :=
  let made := do
    bitmap.validate columns rows
    encode columns rows bitmap encoding settings source
  made.mapError (·.inConstruction columns encoding)

/-- A group over columns of a source. -/
def ofColumns (source : Source) (columns : List Nat) (encoding : Encoding) (settings : Settings) :
    Except PackError Group := do
  let bitmap ← (Bitmap.extract columns source).mapError (·.inConstruction columns encoding)
  ofBitmap columns source.rows bitmap encoding settings source

/-- A group of columns that are all empty, and if there are others a group of those. -/
def splitEmpty (source : Source) (settings : Settings) (plan : ColumnPlan) (empty : List Nat) :
    Except PackError (List Group) :=
  let others := plan.columns.filter (!source.isColumnEmpty ·)
  let first : Group := ⟨empty, source.rows, .empty⟩
  if others.isEmpty then .ok [first]
  else do
    let second ← ofColumns source others plan.encoding settings
    pure [first, second]

/-- The groups of one plan: one, unless several columns of a transposed sparse block are asked for
and some of them are empty. -/
def ofPlan (source : Source) (settings : Settings) (plan : ColumnPlan) :
    Except PackError (List Group) :=
  let empty :=
    if source.transposed && source.block.isSparse && plan.columns.length > 1 then
      plan.columns.filter source.isColumnEmpty
    else []
  if empty.isEmpty then do
    let group ← ofColumns source plan.columns plan.encoding settings
    pure [group]
  else splitEmpty source settings plan empty

/-- The groups of all plans, in order, or the failure of a plan. The calling thread alone stops at
the first plan that fails. -/
def ofPlans (source : Source) (settings : Settings) (plans : List ColumnPlan)
    (pool : Pool := .caller) : Except PackError (List Group) := do
  let groups ← pool.collect (ofPlan source settings) plans
  pure (groups.flatMap id)

end Group

end PackedMatrix
