import PackedMatrix.Bitmap
import PackedMatrix.Selection
import Std.Data.HashMap

namespace PackedMatrix

/-- Tuples met so far, each with its number in the order of first appearance and its rows. -/
structure Grouping where
  places : Std.HashMap (List Cell) Nat
  tuples : Array (List Cell)
  lists : Array (Array Nat)

namespace Grouping

/-- Nothing met yet. -/
def start : Grouping := ⟨∅, #[], #[]⟩

/-- Adds a row to the list of its tuple. -/
def add (grouping : Grouping) (item : TupleRow) : Grouping :=
  match grouping.places[item.tuple]? with
  | some place => { grouping with lists := grouping.lists.modify place (·.push item.row) }
  | none =>
    { places := grouping.places.insert item.tuple grouping.tuples.size
      tuples := grouping.tuples.push item.tuple
      lists := grouping.lists.push #[item.row] }

end Grouping

namespace Bitmap

/-- Groups rows by their tuple. -/
def ofTupleRows (width : Nat) (rows : List TupleRow) : Bitmap :=
  let grouping := rows.foldl Grouping.add .start
  { width
    values := (grouping.tuples.toList.flatMap id).toArray
    lists := grouping.lists.toList.map Array.toList }

/-- The rows of a source that show a tuple over the columns; one column needs no reader. -/
def tupleRows (columns : List Nat) (source : Source) : List TupleRow :=
  match columns with
  | [column] => (source.column column).map fun entry => ⟨entry.1, [entry.2]⟩
  | _ => source.tupleRows columns

/-- The bitmap of increasing columns of a source. -/
def extract (columns : List Nat) (source : Source) : Except PackError Bitmap :=
  if ¬ (columns.Pairwise (· < ·)) then .error (.invalidPlan (.unsorted columns))
  else
    match columns.find? (· ≥ source.cols) with
    | some column => .error (.invalidPlan (.columnRange column source.cols))
    | none =>
      if source.rows > maxIndex then .error (.invalidMatrix (.rowLimit source.rows))
      else .ok (ofTupleRows columns.length (tupleRows columns source))

end Bitmap

end PackedMatrix
