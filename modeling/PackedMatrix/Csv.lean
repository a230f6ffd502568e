import PackedMatrix.Archive.Bytes
import PackedMatrix.Block.Layout
import PackedMatrix.Decimal.Read
import PackedMatrix.Failure
import PackedMatrix.Text

namespace PackedMatrix

namespace Csv

/-- Where the reader stands. -/
inductive Mode
  /-- At the start of a record; line ends are skipped. -/
  | record
  /-- At the start of a field. -/
  | field
  /-- Inside a field without quotes. -/
  | plain
  /-- Between the quotes of a field. -/
  | quoted
  /-- Behind a quote that may be the closing one. -/
  | closing
  deriving DecidableEq, Repr

/-- What was read so far; lists are in reverse. -/
structure Reader where
  mode : Mode
  field : List UInt8
  fields : List (List UInt8)
  records : Array (List (List UInt8))

namespace Reader

def start : Reader := ⟨.record, [], [], #[]⟩

def endField (reader : Reader) : Reader :=
  { reader with mode := .field, field := [], fields := reader.field.reverse :: reader.fields }

def endRecord (reader : Reader) : Reader :=
  let reader := reader.endField
  ⟨.record, [], [], reader.records.push reader.fields.reverse⟩

def keep (reader : Reader) (mode : Mode) (byte : UInt8) : Reader :=
  { reader with mode, field := byte :: reader.field }

def isLineEnd (byte : UInt8) : Bool := byte == 10 || byte == 13

/-- A byte outside of quotes. -/
def plainStep (reader : Reader) (byte : UInt8) : Reader :=
  if byte = 44 then reader.endField
  else if isLineEnd byte then reader.endRecord
  else reader.keep .plain byte

def step (reader : Reader) (byte : UInt8) : Reader :=
  match reader.mode with
  | .record =>
    if isLineEnd byte then reader
    else if byte = 34 then { reader with mode := .quoted }
    else reader.plainStep byte
  | .field => if byte = 34 then { reader with mode := .quoted } else reader.plainStep byte
  | .plain => reader.plainStep byte
  | .quoted => if byte = 34 then { reader with mode := .closing } else reader.keep .quoted byte
  | .closing => if byte = 34 then reader.keep .quoted byte else reader.plainStep byte

def finish (reader : Reader) : Array (List (List UInt8)) :=
  if reader.mode = .record then reader.records else reader.endRecord.records

end Reader

/-- The mark of UTF-8 that a file may start with. -/
def byteOrderMark : List UInt8 := [0xef, 0xbb, 0xbf]

def records (bytes : List UInt8) : List (List (List UInt8)) :=
  let bytes := if bytes.take 3 = byteOrderMark then bytes.drop 3 else bytes
  (bytes.foldl Reader.step Reader.start).finish.toList

/-- The number that a field denotes, blanks at its ends aside. -/
def readCell (row col : Nat) (field : String) : Except Failure Cell :=
  let trimmed := Text.trim field
  if trimmed.isEmpty then .ok Cell.zero
  else
    match Decimal.read trimmed with
    | some cell => .ok cell
    | none =>
      .error ⟨[s!"Row {row}, column {col}: failed to parse '{field}' as a number"],
        some "invalid float literal"⟩

def badRecord : Failure := .ofText "Failed to read CSV record"

/-- The cells of the record in a row, which has to have the given number of fields. -/
def readRow (width row : Nat) (fields : List (List UInt8)) : Except Failure (Array Cell) := do
  if fields.length ≠ width then throw badRecord
  let texts ← fields.mapM fun field =>
    match String.fromUTF8? ⟨field.toArray⟩ with
    | some text => .ok text
    | none => .error badRecord
  let cells ← texts.zipIdx.mapM fun entry => readCell row entry.2 entry.1
  pure cells.toArray

/-- The matrix in a file, without its first record if that is a header. It is stored by its
non-zeros when fewer than half of the cells hold a value. -/
def readBlock (bytes : List UInt8) (hasHeader : Bool) : Except Failure Block := do
  let records := records bytes
  let width := (records.head?.map List.length).getD 0
  let skipped := if hasHeader then 1 else 0
  let rows ← (records.drop skipped).zipIdx.mapM fun entry =>
    readRow width (entry.2 + 1 + skipped) entry.1
  let block ← (Block.ofRows rows.toArray).mapError PackError.failure
  if block.nonZeros * 2 < block.rows * block.cols then pure block.toSparse else pure block

end Csv

end PackedMatrix
