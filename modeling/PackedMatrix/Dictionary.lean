import PackedMatrix.Bitmap

namespace PackedMatrix

/-- Tuples of `width` cells, one after the other. -/
structure Dictionary where
  values : Array Cell
  width : Nat
  deriving DecidableEq, Repr, Inhabited

namespace Dictionary

/-- The values split into whole tuples of a width that is not zero. -/
def validate (dictionary : Dictionary) : Except PackError Unit :=
  if dictionary.width = 0 ∨ dictionary.values.size % dictionary.width ≠ 0 then
    .error (.invariant (.dictionaryShape dictionary.values.size dictionary.width))
  else .ok ()

/-- A dictionary of the given tuples, if they are whole. -/
def ofValues (values : Array Cell) (width : Nat) : Except PackError Dictionary :=
  (validate ⟨values, width⟩).map fun _ => ⟨values, width⟩

/-- The tuples of a bitmap, in its order. -/
def ofBitmap (bitmap : Bitmap) : Dictionary := ⟨bitmap.values, bitmap.width⟩

/-- The number of whole tuples. -/
def tuples (dictionary : Dictionary) : Nat := dictionary.values.size / dictionary.width

/-- The number of whole tuples as it is counted, by a division. -/
def count (dictionary : Dictionary) : Except Fault Nat :=
  if dictionary.width = 0 then .error .zeroDivisor else .ok dictionary.tuples

def tuple (dictionary : Dictionary) (index : Nat) : List Cell :=
  (dictionary.values.extract (index * dictionary.width) ((index + 1) * dictionary.width)).toList

/-- The cells of a tuple, if the dictionary holds all of them. -/
def tuple? (dictionary : Dictionary) (index : Nat) : Option (List Cell) :=
  if (index + 1) * dictionary.width ≤ dictionary.values.size then some (dictionary.tuple index)
  else none

/-- One cell of a tuple, if the dictionary holds it. -/
def value? (dictionary : Dictionary) (tuple column : Nat) : Option Cell :=
  dictionary.values[tuple * dictionary.width + column]?

def headerSize : Nat := 24

def estimateSize (tuples width : Nat) : Nat := headerSize + tuples * width * 8

def size (dictionary : Dictionary) : Nat := estimateSize dictionary.tuples dictionary.width

/-- Dictionaries agree when their numbers do; a NaN agrees with nothing. -/
def sameNumbers (a b : Dictionary) : Bool :=
  a.width == b.width && a.values.isEqv b.values Cell.sameNumber

def zeroTuple (width : Nat) : Array Cell := Array.replicate width Cell.zero

/-- Adds the zero tuple behind the others. -/
def withZeroTuple (dictionary : Dictionary) : Dictionary :=
  { dictionary with values := dictionary.values ++ zeroTuple dictionary.width }

end Dictionary

/-- A dictionary whose last tuple is the default one. -/
structure MovedDictionary where
  dictionary : Dictionary
  /-- The former place of the tuple that was moved. -/
  moved : Option Nat
  /-- The place of the zero tuple, if one was added. -/
  zeroCode : Option Nat
  deriving DecidableEq, Repr

namespace MovedDictionary

/-- The place of the default tuple. -/
def defaultCode (moved : MovedDictionary) : Nat := moved.dictionary.tuples - 1

/-- The place of the tuple that was at `old`. -/
def remap (moved : MovedDictionary) (old : Nat) : Nat :=
  match moved.moved with
  | none => old
  | some place =>
    if old = place then moved.dictionary.tuples - 1
    else if old > place then old - 1
    else old

end MovedDictionary

namespace Dictionary

/-- Makes the most frequent tuple the last one: the tuple at `frequent`, with the zero tuple just
before it if some rows are zero; or the zero tuple itself if more rows hold that. -/
def moveFrequentToLast (dictionary : Dictionary) (bitmap : Bitmap) (rows frequent : Nat) :
    Except PackError MovedDictionary := do
  let tuples ← dictionary.count.mapError .fault
  let width := dictionary.width
  let zeros := bitmap.zeros rows
  if frequent ≥ tuples then .error (.invariant (.frequentTuple frequent tuples))
  else if zeros > (bitmap.list frequent).length then
    .ok ⟨dictionary.withZeroTuple, none, some tuples⟩
  else
    let before := dictionary.values.extract 0 (frequent * width)
    let after := dictionary.values.extract ((frequent + 1) * width) dictionary.values.size
    let zero := if zeros > 0 then zeroTuple width else #[]
    let last := dictionary.values.extract (frequent * width) ((frequent + 1) * width)
    .ok ⟨⟨before ++ after ++ zero ++ last, width⟩, some frequent,
      if zeros > 0 then some (tuples - 1) else none⟩

end Dictionary

end PackedMatrix
