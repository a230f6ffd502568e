import PackedMatrix.CodeMap
import PackedMatrix.Dictionary
import PackedMatrix.Group.OffsetStreams
import PackedMatrix.Group.RunStreams
import PackedMatrix.RowIndex

namespace PackedMatrix

/-- The encoded cells of a group. -/
inductive GroupBody
  /-- All cells are zero. -/
  | empty
  /-- Every row holds the only tuple. -/
  | const (dictionary : Dictionary)
  /-- One code for every row. -/
  | ddc (dictionary : Dictionary) (codes : CodeMap)
  /-- The rows of each tuple, in blocks. -/
  | ole (dictionary : Dictionary) (offsets : OffsetStreams)
  /-- The rows of each tuple, in runs. -/
  | rle (dictionary : Dictionary) (runs : RunStreams)
  /-- Codes of the listed rows; other rows hold the last tuple. -/
  | sdc (dictionary : Dictionary) (index : RowIndex) (codes : CodeMap)
  /-- Codes of the listed rows; other rows are zero. -/
  | sdcZeros (dictionary : Dictionary) (index : RowIndex) (codes : CodeMap)
  /-- Listed rows hold the first tuple and other rows the last one. -/
  | sdcSingle (dictionary : Dictionary) (index : RowIndex)
  /-- Listed rows hold the only tuple; other rows are zero. -/
  | sdcSingleZeros (dictionary : Dictionary) (index : RowIndex)
  /-- A copy of the columns. -/
  | uncompressed (block : Block)
  deriving DecidableEq, Repr, Inhabited

namespace GroupBody

def encoding : GroupBody → Encoding
  | empty => .empty
  | const _ => .const
  | ddc .. => .ddc
  | ole .. => .ole
  | rle .. => .rle
  | sdc .. => .sdc
  | sdcZeros .. => .sdc
  | sdcSingle .. => .sdc
  | sdcSingleZeros .. => .sdc
  | uncompressed _ => .uncompressed

/-- The name of the encoding, and for sparse coding of its shape. -/
def variantName : GroupBody → String
  | sdcZeros .. => "SDC_ZEROS"
  | sdcSingle .. => "SDC_SINGLE"
  | sdcSingleZeros .. => "SDC_SINGLE_ZEROS"
  | body => body.encoding.name

def dictionary? : GroupBody → Option Dictionary
  | empty => none
  | const dictionary => some dictionary
  | ddc dictionary _ => some dictionary
  | ole dictionary _ => some dictionary
  | rle dictionary _ => some dictionary
  | sdc dictionary _ _ => some dictionary
  | sdcZeros dictionary _ _ => some dictionary
  | sdcSingle dictionary _ => some dictionary
  | sdcSingleZeros dictionary _ => some dictionary
  | uncompressed _ => none

def codes? : GroupBody → Option CodeMap
  | ddc _ codes => some codes
  | sdc _ _ codes => some codes
  | sdcZeros _ _ codes => some codes
  | _ => none

def index? : GroupBody → Option RowIndex
  | sdc _ index _ => some index
  | sdcZeros _ index _ => some index
  | sdcSingle _ index => some index
  | sdcSingleZeros _ index => some index
  | _ => none

/-- The number of tuples, and for a copy of the columns that of its stored cells. -/
def values (body : GroupBody) : Nat :=
  match body with
  | uncompressed block => block.nonZeros
  | body => (body.dictionary?.map Dictionary.tuples).getD 0

/-- Bodies agree when encoding, codes and numbers do; a NaN agrees with nothing. -/
def sameNumbers : GroupBody → GroupBody → Bool
  | empty, empty => true
  | const d, const d' => d.sameNumbers d'
  | ddc d codes, ddc d' codes' => d.sameNumbers d' && codes == codes'
  | ole d offsets, ole d' offsets' => d.sameNumbers d' && offsets == offsets'
  | rle d runs, rle d' runs' => d.sameNumbers d' && runs == runs'
  | sdc d index codes, sdc d' index' codes' =>
    d.sameNumbers d' && index == index' && codes == codes'
  | sdcZeros d index codes, sdcZeros d' index' codes' =>
    d.sameNumbers d' && index == index' && codes == codes'
  | sdcSingle d index, sdcSingle d' index' => d.sameNumbers d' && index == index'
  | sdcSingleZeros d index, sdcSingleZeros d' index' => d.sameNumbers d' && index == index'
  | uncompressed block, uncompressed block' => block.sameNumbers block'
  | _, _ => false

end GroupBody

/-- Some columns of a matrix with the given number of rows, in one encoding. The fields may come
from a file and need not fit together. -/
structure Group where
  columns : List Nat
  rows : Nat
  body : GroupBody
  deriving DecidableEq, Repr, Inhabited

namespace Group

def encoding (group : Group) : Encoding := group.body.encoding

def variantName (group : Group) : String := group.body.variantName

/-- Groups agree when their columns, rows and bodies do. -/
def sameNumbers (a b : Group) : Bool :=
  a.columns == b.columns && a.rows == b.rows && a.body.sameNumbers b.body

def baseSize (columns : Nat) : Nat := 16 + columns * 4

/-- Bytes of a group whose rows all hold the same tuple. -/
def constSize (columns : Nat) : Nat := baseSize columns + Dictionary.estimateSize 1 columns

def size (group : Group) : Nat :=
  let base := baseSize group.columns.length
  match group.body with
  | .empty => base
  | .const _ => constSize group.columns.length
  | .ddc dictionary codes => base + dictionary.size + codes.size
  | .ole dictionary offsets => base + dictionary.size + offsets.streams.size
  | .rle dictionary runs => base + dictionary.size + runs.size
  | .sdc dictionary index codes => base + dictionary.size + index.size + codes.size
  | .sdcZeros dictionary index codes => base + dictionary.size + index.size + codes.size
  | .sdcSingle dictionary index => base + dictionary.size + index.size
  | .sdcSingleZeros dictionary index => base + dictionary.size + index.size
  | .uncompressed block => base + block.size

end Group

end PackedMatrix
