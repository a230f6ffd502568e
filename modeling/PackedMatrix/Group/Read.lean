import PackedMatrix.Group

namespace PackedMatrix

namespace Group

/-- A cell of a tuple of the dictionary. -/
def tupleCell (dictionary : Dictionary) (tuple place : Nat) : Except Fault Cell :=
  Fault.found (dictionary.value? tuple place)

/-- The place of a row among the listed ones; rows are looked up as 32-bit numbers. -/
def ordinal? (index : RowIndex) (row : Nat) : Except Fault (Option Nat) :=
  index.ordinal? (row % UInt32.size)

/-- The cell that the group holds in a row, in the column at a place of its column list. -/
def cellAt (group : Group) (row place : Nat) : Except Fault Cell :=
  match group.body with
  | .empty => .ok Cell.zero
  | .const dictionary => tupleCell dictionary 0 place
  | .ddc dictionary codes => do
    let code ← Fault.found (codes.get? row)
    tupleCell dictionary code place
  | .ole dictionary offsets => do
    match ← offsets.tupleIn dictionary row with
    | some tuple => tupleCell dictionary tuple place
    | none => .ok Cell.zero
  | .rle dictionary runs => do
    let tuples ← dictionary.count
    match ← RunStreams.tupleOf runs tuples row with
    | some tuple => tupleCell dictionary tuple place
    | none => .ok Cell.zero
  | .sdc dictionary index codes => do
    match ← ordinal? index row with
    | some ordinal =>
      let code ← Fault.found (codes.get? ordinal)
      tupleCell dictionary code place
    | none =>
      let tuples ← dictionary.count
      tupleCell dictionary (tuples - 1) place
  | .sdcZeros dictionary index codes => do
    match ← ordinal? index row with
    | some ordinal =>
      let code ← Fault.found (codes.get? ordinal)
      tupleCell dictionary code place
    | none => .ok Cell.zero
  | .sdcSingle dictionary index => do
    match ← ordinal? index row with
    | some _ => tupleCell dictionary 0 place
    | none =>
      let tuples ← dictionary.count
      tupleCell dictionary (tuples - 1) place
  | .sdcSingleZeros dictionary index => do
    match ← ordinal? index row with
    | some _ => tupleCell dictionary 0 place
    | none => .ok Cell.zero
  | .uncompressed block =>
    if row < block.rows ∧ place < block.cols then block.fetch row place else .ok Cell.zero

/-- The place of a column in the column list. -/
def place? (group : Group) (col : Nat) : Option Nat :=
  let columns := group.columns.toArray
  Search.find? (fun i => compare (columns.getD i 0) col) columns.size

/-- The cell at a row and a column of the matrix, if the group covers them. -/
def get? (group : Group) (row col : Nat) : Except Fault (Option Cell) :=
  if row < group.rows then
    match group.place? col with
    | some place => (group.cellAt row place).map some
    | none => .ok none
  else .ok none

/-- A row with the number of the tuple that it holds. -/
structure Placement where
  row : Nat
  tuple : Nat
  deriving DecidableEq, Repr, Inhabited

def placeAll (rows : List Nat) (tuple : Nat) : List Placement := rows.map fun row => ⟨row, tuple⟩

def codedRows (index : RowIndex) (codes : CodeMap) : Except Fault (List Placement) := do
  let rows ← index.rows
  rows.zipIdx.mapM fun entry => do
    let code ← Fault.found (codes.get? entry.2)
    pure ⟨entry.1, code⟩

/-- The rows of so many tuples, tuple by tuple. -/
def tupleRows (rowsOf : Nat → Except Fault (List Nat)) (tuples : Nat) :
    Except Fault (List Placement) := do
  let lists ← (List.range tuples).mapM fun tuple => do
    let rows ← rowsOf tuple
    pure (placeAll rows tuple)
  pure (lists.flatMap id)

/-- What a bulk read writes, in order: later placements replace earlier ones. -/
def placements (group : Group) : Except Fault (List Placement) :=
  let all := List.range group.rows
  match group.body with
  | .empty => .ok []
  | .const _ => .ok (placeAll all 0)
  | .ddc _ codes =>
    (List.range codes.length).mapM fun row => do
      let code ← Fault.found (codes.get? row)
      pure ⟨row, code⟩
  | .ole dictionary offsets => do
    let tuples ← dictionary.count
    tupleRows offsets.rowsOf tuples
  | .rle dictionary runs => do
    let tuples ← dictionary.count
    tupleRows (fun tuple => do
      let found ← RunStreams.runsOf runs tuple
      pure (found.flatMap Run.rows)) tuples
  | .sdc dictionary index codes => do
    let tuples ← dictionary.count
    let coded ← codedRows index codes
    pure (placeAll all (tuples - 1) ++ coded)
  | .sdcZeros _ index codes => codedRows index codes
  | .sdcSingle dictionary index => do
    let tuples ← dictionary.count
    let listed ← index.rows
    pure (placeAll all (tuples - 1) ++ placeAll listed 0)
  | .sdcSingleZeros _ index => do
    let listed ← index.rows
    pure (placeAll listed 0)
  | .uncompressed _ => .ok []

def writeCell (buffer : Array Cell) (position : Nat) (cell : Cell) : Except Fault (Array Cell) :=
  if h : position < buffer.size then .ok (buffer.set position cell) else .error .outOfRange

/-- Writes the cells of a tuple into the columns of one row. -/
def writeTuple (width row : Nat) (buffer : Array Cell) (cells : List (Nat × Cell)) :
    Except Fault (Array Cell) :=
  cells.foldlM (fun buffer cell => writeCell buffer (row * width + cell.1) cell.2) buffer

/-- Writes placements into the columns of a buffer. -/
def writePlacements (columns : List Nat) (dictionary : Dictionary) (width : Nat)
    (buffer : Array Cell) (placements : List Placement) : Except Fault (Array Cell) :=
  placements.foldlM (fun buffer placement => do
    let tuple ← Fault.found (dictionary.tuple? placement.tuple)
    writeTuple width placement.row buffer (columns.zip tuple)) buffer

/-- Writes the cells of a copy of the columns that are not zero. -/
def writeBlock (columns : List Nat) (block : Block) (width : Nat) (buffer : Array Cell) :
    Except Fault (Array Cell) :=
  columns.zipIdx.foldlM (fun buffer choice =>
    (List.range block.rows).foldlM (fun buffer row => do
      let cell ← block.fetch row choice.2
      if cell.isZero then pure buffer
      else writeCell buffer (row * width + choice.1) cell) buffer) buffer

/-- Writes the group's cells into a buffer of rows of the given width. Cells of other columns, and
zeros that need no tuple, are left as they are. -/
def decompressInto (group : Group) (width : Nat) (buffer : Array Cell) :
    Except Fault (Array Cell) :=
  match group.body with
  | .uncompressed block => writeBlock group.columns block width buffer
  | body =>
    match body.dictionary? with
    | none => .ok buffer
    | some dictionary => do
      let placements ← group.placements
      writePlacements group.columns dictionary width buffer placements

end Group

end PackedMatrix
