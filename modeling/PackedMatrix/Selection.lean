import PackedMatrix.Source
import PackedMatrix.Total

namespace PackedMatrix

/-- A row number with its tuple over the chosen columns. -/
structure TupleRow where
  row : Nat
  tuple : List Cell
  deriving DecidableEq, Repr, Inhabited

/-- The cells of one row, a place for each chosen column. -/
abbrev RowBuffer := Array Cell

namespace RowBuffer

def clear (buffer : RowBuffer) : RowBuffer := buffer.map fun _ => Cell.zero

/-- Writes cells to their places, in order. -/
def put (buffer : RowBuffer) (writes : List (Nat × Cell)) : RowBuffer :=
  writes.foldl (fun buffer write => buffer.setIfInBounds write.1 write.2) buffer

end RowBuffer

/-- Entries of each chosen column that are still to come. -/
abbrev Cursors := List (List (Nat × Cell))

namespace Cursors

/-- The least row at which a column has its next entry. -/
def nextRow? (cursors : Cursors) : Option Nat :=
  (cursors.filterMap fun column => column.head?.map Prod.fst).min?

/-- The next entry of a column if it lies in a row, and the entries behind that row. -/
def take (row : Nat) : List (Nat × Cell) → Option Cell × List (Nat × Cell)
  | [] => (none, [])
  | entry :: rest => if entry.1 = row then (some entry.2, rest) else (none, entry :: rest)

/-- The cells of the columns that go on in a row, with their places. -/
def writes (row : Nat) (cursors : Cursors) : List (Nat × Cell) :=
  cursors.zipIdx.filterMap fun column => (take row column.1).1.map fun cell => (column.2, cell)

/-- The entries that are left once a row has been read. -/
def advance (row : Nat) (cursors : Cursors) : Cursors :=
  cursors.map fun column => (take row column).2

/-- The number of entries that are still to come. -/
def remaining (cursors : Cursors) : Nat := total (cursors.map List.length)

theorem length_take_le (row : Nat) (column : List (Nat × Cell)) :
    (take row column).2.length ≤ column.length := by
  cases column with
  | nil => simp [take]
  | cons entry rest =>
    by_cases same : entry.1 = row <;> simp [take, same]

theorem length_take_lt {row : Nat} {column : List (Nat × Cell)}
    (h : column.head?.map Prod.fst = some row) : (take row column).2.length < column.length := by
  cases column with
  | nil => simp at h
  | cons entry rest =>
    have same : entry.1 = row := by simpa using h
    simp [take, same]

theorem remaining_advance_le (row : Nat) (cursors : Cursors) :
    remaining (advance row cursors) ≤ remaining cursors := by
  induction cursors with
  | nil => simp [remaining, advance]
  | cons column rest ih =>
    have := length_take_le row column
    simp only [remaining, advance, List.map_cons, total_cons] at ih ⊢
    omega

/-- Reading the next row uses up at least one entry. -/
theorem remaining_advance_lt {row : Nat} {cursors : Cursors} (h : nextRow? cursors = some row) :
    remaining (advance row cursors) < remaining cursors := by
  have occurs : row ∈ cursors.filterMap fun column => column.head?.map Prod.fst := by
    unfold nextRow? at h
    exact List.min?_mem h
  clear h
  induction cursors with
  | nil => simp at occurs
  | cons column rest ih =>
    have bound := length_take_le row column
    have others := remaining_advance_le row rest
    simp only [remaining, advance, List.map_cons, total_cons] at ih others ⊢
    rcases List.mem_filterMap.mp occurs with ⟨found, member, head⟩
    rcases List.mem_cons.mp member with rfl | member
    · have := length_take_lt head
      omega
    · have := ih (List.mem_filterMap.mpr ⟨found, member, head⟩)
      omega

end Cursors

/-- Where a dense block keeps the cell of a source. -/
def Source.position (source : Source) (row col : Nat) : Nat :=
  if source.transposed then col * source.block.cols + row else row * source.block.cols + col

/-- The stored cells of a row that lie in chosen columns, each with the place of its column, which
is searched for. -/
def SparseRows.chosen (sparse : SparseRows) (columns : Array Nat) (row : Nat) :
    List (Nat × Cell) :=
  (sparse.entries row).filterMap fun entry =>
    (Search.find? (fun i => compare (columns.getD i 0) entry.1) columns.size).map
      fun place => (place, entry.2)

/-- Reads a row into a buffer, and tells whether it has a cell that is not zero. A sparse row that
stores nothing is passed over, and the buffer keeps what it held. -/
def Source.readRow (source : Source) (columns : Array Nat) (row : Nat) (buffer : RowBuffer) :
    Bool × RowBuffer :=
  match source.block.data with
  | .dense cells =>
    let buffer := buffer.put (columns.toList.zipIdx.map fun choice =>
      (choice.2, cells.getD (source.position row choice.1) Cell.zero))
    (!isZeroTuple buffer.toList, buffer)
  | .sparse sparse =>
    if (sparse.rowColumns row).isEmpty then (false, buffer)
    else
      let writes := sparse.chosen columns row
      (writes.any fun write => !write.2.isZero, buffer.clear.put writes)

/-- A reader of the rows of a source, at some point of its way. It stops at the rows whose tuple
over the chosen columns is not zero, and reads them all into one buffer. -/
inductive Reader
  /-- Rows from `row` on are still to be looked at. -/
  | scan (source : Source) (columns : Array Nat) (row : Nat) (buffer : RowBuffer)
  /-- Columns that lie together are merged. -/
  | merge (cursors : Cursors) (buffer : RowBuffer)

namespace Reader

/-- A reader in front of the first row. -/
def start (source : Source) (columns : List Nat) : Reader :=
  let buffer := Array.replicate columns.length Cell.zero
  match source.block.data, source.transposed with
  | .sparse sparse, true => merge (columns.map sparse.entries) buffer
  | _, _ => scan source columns.toArray 0 buffer

/-- Looks at the rows from `row` on until one is not zero. -/
def scanFrom (source : Source) (columns : Array Nat) (row : Nat) (buffer : RowBuffer) :
    Option TupleRow × Reader :=
  if row < source.rows then
    match source.readRow columns row buffer with
    | (true, buffer) => (some ⟨row, buffer.toList⟩, scan source columns (row + 1) buffer)
    | (false, buffer) => scanFrom source columns (row + 1) buffer
  else (none, scan source columns row buffer)
termination_by source.rows - row

/-- Goes to the next row at which a column goes on until one is not zero. -/
def mergeFrom (cursors : Cursors) (buffer : RowBuffer) : Option TupleRow × Reader :=
  match _h : cursors.nextRow? with
  | none => (none, merge cursors buffer)
  | some row =>
    let buffer := buffer.clear.put (cursors.writes row)
    if isZeroTuple buffer.toList then mergeFrom (cursors.advance row) buffer
    else (some ⟨row, buffer.toList⟩, merge (cursors.advance row) buffer)
termination_by cursors.remaining
decreasing_by exact Cursors.remaining_advance_lt _h

/-- The next row whose tuple is not zero, and the reader behind it. -/
def next : Reader → Option TupleRow × Reader
  | scan source columns row buffer => scanFrom source columns row buffer
  | merge cursors buffer => mergeFrom cursors buffer

/-- The next row whose tuple is not zero. -/
def next? (reader : Reader) : Option TupleRow := reader.next.1

/-- How much is still to be read at most. -/
def remaining : Reader → Nat
  | scan source _ row _ => source.rows - row
  | merge cursors _ => cursors.remaining

theorem remaining_scanFrom_lt {source : Source} {columns : Array Nat} {row : Nat}
    {buffer : RowBuffer} {found : TupleRow} {after : Reader}
    (h : scanFrom source columns row buffer = (some found, after)) :
    after.remaining < source.rows - row := by
  fun_induction scanFrom source columns row buffer with
  | case1 row buffer inside shown read =>
    cases h
    simp only [remaining]
    omega
  | case2 row buffer inside passed read ih =>
    have := ih h
    omega
  | case3 => cases h

theorem remaining_mergeFrom_lt {cursors : Cursors} {buffer : RowBuffer} {found : TupleRow}
    {after : Reader} (h : mergeFrom cursors buffer = (some found, after)) :
    after.remaining < cursors.remaining := by
  fun_induction mergeFrom cursors buffer with
  | case1 => cases h
  | case2 cursors buffer row start buffer' zero ih =>
    exact Nat.lt_trans (ih h) (Cursors.remaining_advance_lt start)
  | case3 cursors buffer row start buffer' nonzero =>
    cases h
    exact Cursors.remaining_advance_lt start

/-- Reading a row leaves less to be read. -/
theorem remaining_next_lt {reader : Reader} {found : TupleRow} {after : Reader}
    (h : reader.next = (some found, after)) : after.remaining < reader.remaining := by
  cases reader with
  | scan source columns row buffer => exact remaining_scanFrom_lt h
  | merge cursors buffer => exact remaining_mergeFrom_lt h

/-- Reads to the end: the rows in order, and the reader behind the last one. -/
def drain (reader : Reader) (read : Array TupleRow) : Array TupleRow × Reader :=
  match _h : reader.next with
  | (none, after) => (read, after)
  | (some found, after) => drain after (read.push found)
termination_by reader.remaining
decreasing_by exact remaining_next_lt _h

end Reader

/-- The rows of a source whose tuple over the chosen columns is not zero. -/
def Source.tupleRows (source : Source) (columns : List Nat) : List TupleRow :=
  ((Reader.start source columns).drain #[]).1.toList

end PackedMatrix
