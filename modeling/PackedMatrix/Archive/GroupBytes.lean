import PackedMatrix.Archive.Bytes
import PackedMatrix.Group

namespace PackedMatrix

namespace SparseRows

def toBytes (sparse : SparseRows) : List UInt8 :=
  Bytes.ofItems Bytes.ofSize sparse.rowPtr.toList ++
    Bytes.ofItems (fun col => Bytes.ofNat 4 col.toNat) sparse.colIdx.toList ++
    Bytes.ofItems Bytes.ofCell sparse.values.toList

def decoder : Decoder SparseRows := do
  let rowPtr ← Decoder.items .size
  let colIdx ← Decoder.items (.nat 4)
  let values ← Decoder.items .cell
  pure ⟨rowPtr, colIdx.map UInt32.ofNat, values⟩

end SparseRows

namespace BlockData

def toBytes : BlockData → List UInt8
  | dense cells => Bytes.ofChoice 0 ++ Bytes.ofItems Bytes.ofCell cells.toList
  | sparse rows => Bytes.ofChoice 1 ++ rows.toBytes

def decoder : Decoder BlockData := do
  let layout ← Decoder.choice 2 (fun number =>
    match number with
    | 0 => some (Decoder.items Decoder.cell >>= fun cells => pure (dense cells))
    | 1 => some (SparseRows.decoder >>= fun rows => pure (sparse rows))
    | _ => none)
  layout

end BlockData

namespace Block

def toBytes (block : Block) : List UInt8 :=
  Bytes.ofSize block.rows ++ Bytes.ofSize block.cols ++ block.data.toBytes

def decoder : Decoder Block := do
  let rows ← Decoder.size
  let cols ← Decoder.size
  let data ← BlockData.decoder
  pure ⟨rows, cols, data⟩

end Block

namespace Dictionary

def toBytes (dictionary : Dictionary) : List UInt8 :=
  Bytes.ofItems Bytes.ofCell dictionary.values.toList ++ Bytes.ofSize dictionary.width

def decoder : Decoder Dictionary := do
  let values ← Decoder.items .cell
  let width ← Decoder.size
  pure ⟨values, width⟩

end Dictionary

namespace CodeMap

def toBytes : CodeMap → List UInt8
  | bit words length =>
    Bytes.ofChoice 0 ++ Bytes.ofItems (fun word => Bytes.ofNat 8 word.toNat) words.toList ++
      Bytes.ofSize length
  | byte codes => Bytes.ofChoice 1 ++ Bytes.ofItems (fun code => [code]) codes.toList
  | half codes =>
    Bytes.ofChoice 2 ++ Bytes.ofItems (fun code => Bytes.ofNat 2 code.toNat) codes.toList
  | word codes =>
    Bytes.ofChoice 3 ++ Bytes.ofItems (fun code => Bytes.ofNat 4 code.toNat) codes.toList

def bitDecoder : Decoder CodeMap := do
  let words ← Decoder.items (.nat 8)
  let length ← Decoder.size
  pure (.bit (words.map UInt64.ofNat) length)

def decoder : Decoder CodeMap := do
  let width ← Decoder.choice 4 (fun number =>
    match number with
    | 0 => some bitDecoder
    | 1 => some (Decoder.items (.nat 1) >>= fun codes => pure (.byte (codes.map UInt8.ofNat)))
    | 2 => some (Decoder.items (.nat 2) >>= fun codes => pure (.half (codes.map UInt16.ofNat)))
    | 3 => some (Decoder.items (.nat 4) >>= fun codes => pure (.word (codes.map UInt32.ofNat)))
    | _ => none)
  width

end CodeMap

namespace GapStream

def toBytes : GapStream → List UInt8
  | byte words => Bytes.ofChoice 0 ++ Bytes.ofItems (fun word => [word]) words.toList
  | half words =>
    Bytes.ofChoice 1 ++ Bytes.ofItems (fun word => Bytes.ofNat 2 word.toNat) words.toList

def decoder : Decoder GapStream := do
  let width ← Decoder.choice 2 (fun number =>
    match number with
    | 0 => some (Decoder.items (.nat 1) >>= fun words => pure (.byte (words.map UInt8.ofNat)))
    | 1 => some (Decoder.items (.nat 2) >>= fun words => pure (.half (words.map UInt16.ofNat)))
    | _ => none)
  width

end GapStream

namespace Anchor

def toBytes (anchor : Anchor) : List UInt8 :=
  Bytes.ofNat 4 anchor.row.toNat ++ Bytes.ofNat 4 anchor.position.toNat

def decoder : Decoder Anchor := do
  let row ← Decoder.nat 4
  let position ← Decoder.nat 4
  pure ⟨UInt32.ofNat row, UInt32.ofNat position⟩

end Anchor

namespace RowIndex

def toBytes (index : RowIndex) : List UInt8 :=
  index.gaps.toBytes ++ Bytes.ofItems Anchor.toBytes index.anchors.toList ++
    Bytes.ofSize index.length

def decoder : Decoder RowIndex := do
  let gaps ← GapStream.decoder
  let anchors ← Decoder.items Anchor.decoder
  let length ← Decoder.size
  pure ⟨gaps, anchors, length⟩

end RowIndex

namespace Streams

def toBytes (streams : Streams) : List UInt8 :=
  Bytes.ofItems (fun pointer => Bytes.ofNat 4 pointer.toNat) streams.ptr.toList ++
    Bytes.ofItems (fun word => Bytes.ofNat 2 word.toNat) streams.data.toList

def decoder : Decoder Streams := do
  let ptr ← Decoder.items (.nat 4)
  let data ← Decoder.items (.nat 2)
  pure ⟨ptr.map UInt32.ofNat, data.map UInt16.ofNat⟩

end Streams

namespace OffsetStreams

def toBytes (offsets : OffsetStreams) : List UInt8 :=
  Bytes.ofSize offsets.blockSize ++ offsets.streams.toBytes

def decoder : Decoder OffsetStreams := do
  let blockSize ← Decoder.size
  let streams ← Streams.decoder
  pure ⟨blockSize, streams⟩

end OffsetStreams

namespace GroupBody

/-- The number that the kind of a body is stored as. -/
def kind : GroupBody → Nat
  | empty => 0
  | const _ => 1
  | ddc .. => 2
  | ole .. => 3
  | rle .. => 4
  | sdc .. => 5
  | sdcZeros .. => 6
  | sdcSingle .. => 7
  | sdcSingleZeros .. => 8
  | uncompressed _ => 9

def kinds : Nat := 10

def toBytes : GroupBody → List UInt8
  | empty => []
  | const dictionary => dictionary.toBytes
  | ddc dictionary codes => dictionary.toBytes ++ codes.toBytes
  | ole dictionary offsets => dictionary.toBytes ++ offsets.toBytes
  | rle dictionary runs => dictionary.toBytes ++ Streams.toBytes runs
  | sdc dictionary index codes => dictionary.toBytes ++ index.toBytes ++ codes.toBytes
  | sdcZeros dictionary index codes => dictionary.toBytes ++ index.toBytes ++ codes.toBytes
  | sdcSingle dictionary index => dictionary.toBytes ++ index.toBytes
  | sdcSingleZeros dictionary index => dictionary.toBytes ++ index.toBytes
  | uncompressed block => block.toBytes

def pairDecoder {α β : Type} (make : α → β → GroupBody) (first : Decoder α) (second : Decoder β) :
    Decoder GroupBody := do
  let a ← first
  let b ← second
  pure (make a b)

def codedDecoder (make : Dictionary → RowIndex → CodeMap → GroupBody) : Decoder GroupBody := do
  let dictionary ← Dictionary.decoder
  let index ← RowIndex.decoder
  let codes ← CodeMap.decoder
  pure (make dictionary index codes)

/-- The decoder of the fields of a kind. -/
def decoder? : Nat → Option (Decoder GroupBody)
  | 0 => some (pure empty)
  | 1 => some (Dictionary.decoder >>= fun dictionary => pure (const dictionary))
  | 2 => some (pairDecoder ddc Dictionary.decoder CodeMap.decoder)
  | 3 => some (pairDecoder ole Dictionary.decoder OffsetStreams.decoder)
  | 4 => some (pairDecoder rle Dictionary.decoder Streams.decoder)
  | 5 => some (codedDecoder sdc)
  | 6 => some (codedDecoder sdcZeros)
  | 7 => some (pairDecoder sdcSingle Dictionary.decoder RowIndex.decoder)
  | 8 => some (pairDecoder sdcSingleZeros Dictionary.decoder RowIndex.decoder)
  | 9 => some (Block.decoder >>= fun block => pure (uncompressed block))
  | _ => none

end GroupBody

namespace Group

def toBytes (group : Group) : List UInt8 :=
  Bytes.ofChoice group.body.kind ++ Bytes.ofItems Bytes.ofSize group.columns ++
    Bytes.ofSize group.rows ++ group.body.toBytes

def decoder : Decoder Group := do
  let fields ← Decoder.choice GroupBody.kinds GroupBody.decoder?
  let columns ← Decoder.items .size
  let rows ← Decoder.size
  let body ← fields
  pure ⟨columns.toList, rows, body⟩

/-- The group that bytes start with. -/
def ofBytes (bytes : List UInt8) : Except DecodeError Group := (decoder bytes).map Prod.fst

end Group

end PackedMatrix
