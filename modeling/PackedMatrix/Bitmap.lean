import PackedMatrix.Bitmap.SeenRows
import PackedMatrix.Cell
import PackedMatrix.Total

namespace PackedMatrix

/-- The tuples of `width` cells, one after the other, and for each the rows that hold it. Rows that
no list names hold the zero tuple. -/
structure Bitmap where
  width : Nat
  values : Array Cell
  lists : List (List Nat)
  deriving DecidableEq, Repr, Inhabited

namespace Bitmap

/-- A bitmap of rows that are all zero. -/
def empty (width : Nat) : Bitmap := ⟨width, #[], []⟩

/-- The number of tuples, which is that of the lists. -/
def tuples (bitmap : Bitmap) : Nat := bitmap.lists.length

def tuple (bitmap : Bitmap) (index : Nat) : List Cell :=
  (bitmap.values.extract (index * bitmap.width) ((index + 1) * bitmap.width)).toList

/-- The rows that hold a tuple. -/
def list (bitmap : Bitmap) (index : Nat) : List Nat := bitmap.lists.getD index []

/-- The number of rows that the lists name. -/
def offsets (bitmap : Bitmap) : Nat := total (bitmap.lists.map List.length)

/-- The number of rows that no list names. -/
def zeros (bitmap : Bitmap) (rows : Nat) : Nat := rows - bitmap.offsets

/-- Replaces the best list so far only by a longer one. -/
def longer (best : Option (Nat × Nat)) (list : List Nat × Nat) : Option (Nat × Nat) :=
  match best with
  | none => some (list.2, list.1.length)
  | some (index, length) =>
    if length < list.1.length then some (list.2, list.1.length) else some (index, length)

/-- The first of the longest lists and its length. -/
def largest? (bitmap : Bitmap) : Option (Nat × Nat) := bitmap.lists.zipIdx.foldl longer none

/-- Puts tuples with more rows first; equally frequent ones keep their order. -/
def sortByFrequency (bitmap : Bitmap) : Bitmap :=
  if bitmap.lists.isEmpty then bitmap
  else
    let order := bitmap.lists.zipIdx.mergeSort fun a b => decide (b.1.length ≤ a.1.length)
    { bitmap with
      values := (order.flatMap fun entry => bitmap.tuple entry.2).toArray
      lists := order.map Prod.fst }

/-- Checks one list behind the row `last`, and adds its rows to those already seen. -/
def checkList {rows : Nat} (index : Nat) (last : Option Nat) (list : List Nat)
    (seen : SeenRows rows) : Except BitmapError (SeenRows rows) :=
  match list with
  | [] => .ok seen
  | row :: rest =>
    if outside : row ≥ rows then .error (.rowRange row index)
    else if last.any (· ≥ row) then .error (.notIncreasing index)
    else
      let place : Fin rows := ⟨row, Nat.lt_of_not_le outside⟩
      if seen.has place then .error (.shared row)
      else checkList index (some row) rest (seen.add place)

/-- Checks the lists from number `index` on. -/
def checkLists {rows : Nat} (index : Nat) (lists : List (List Nat)) (seen : SeenRows rows) :
    Except BitmapError Unit :=
  match lists with
  | [] => .ok ()
  | list :: rest =>
    if list.isEmpty then .error (.emptyList index)
    else
      match checkList index none list seen with
      | .error cause => .error cause
      | .ok seen => checkLists (index + 1) rest seen

/-- What is wrong with a bitmap over so many columns and rows. More rows than there are must repeat
one, which is told before any list is looked at. -/
def check (bitmap : Bitmap) (columns rows : Nat) : Except BitmapError Unit :=
  if bitmap.width ≠ columns then .error (.width bitmap.width columns)
  else if bitmap.lists.isEmpty then .ok ()
  else if bitmap.values.size ≠ bitmap.tuples * bitmap.width then
    .error (.values bitmap.values.size bitmap.tuples bitmap.width)
  else if bitmap.offsets > rows then .error (.tooManyOffsets bitmap.offsets rows)
  else checkLists 0 bitmap.lists (SeenRows.start rows)

/-- A bitmap is accepted for a group when it has the group's width, one tuple for each list, and
nonempty increasing lists of rows of the group, no two of which share a row. -/
def validate (bitmap : Bitmap) (columns : List Nat) (rows : Nat) : Except PackError Unit :=
  (bitmap.check columns.length rows).mapError (.invalidBitmap columns)

end Bitmap

end PackedMatrix
