import PackedMatrix.Archive.Error
import PackedMatrix.Fault
import PackedMatrix.Total

namespace PackedMatrix

/-- What a header says about one group, so that groups can be listed without unpacking any. -/
structure GroupEntry where
  encoding : Encoding
  variant : String
  columns : List Nat
  /-- Bytes of the payload, packed. -/
  storedSize : Nat
  /-- Bytes that the group takes in memory. -/
  memorySize : Nat
  deriving DecidableEq, Repr, Inhabited

namespace GroupEntry

def toBytes (entry : GroupEntry) : List UInt8 :=
  Bytes.ofChoice entry.encoding.rank ++ Bytes.ofText entry.variant ++
    Bytes.ofItems Bytes.ofSize entry.columns ++ Bytes.ofSize entry.storedSize ++
    Bytes.ofSize entry.memorySize

def decoder : Decoder GroupEntry := do
  let encoding ← Decoder.choice Encoding.all.length Encoding.ofRank?
  let variant ← Decoder.text
  let columns ← Decoder.items .size
  let storedSize ← Decoder.size
  let memorySize ← Decoder.size
  pure ⟨encoding, variant, columns.toList, storedSize, memorySize⟩

end GroupEntry

structure Header where
  version : Nat
  codec : Codec
  rows : Nat
  cols : Nat
  created : Timestamp
  groups : List GroupEntry
  deriving DecidableEq, Repr, Inhabited

namespace Header

/-- The bytes that every archive starts with. -/
def magic : List UInt8 := "CMXBLK01".toUTF8.toList

/-- The only version there is. -/
def currentVersion : Nat := 1

def toBytes (header : Header) : List UInt8 :=
  Bytes.ofNat 4 header.version ++ Bytes.ofChoice header.codec.rank ++ Bytes.ofSize header.rows ++
    Bytes.ofSize header.cols ++ Bytes.ofText header.created.render ++
    Bytes.ofItems GroupEntry.toBytes header.groups

/-- A time, from its text. -/
def timeDecoder : Decoder Timestamp := do
  let text ← Decoder.text
  match Timestamp.read text with
  | .ok time => pure time
  | .error error => Decoder.fail (.time error)

def decoder : Decoder Header := do
  let version ← Decoder.nat 4
  let codec ← Decoder.choice Codec.all.length Codec.ofRank?
  let rows ← Decoder.size
  let cols ← Decoder.size
  let created ← timeDecoder
  let groups ← Decoder.items GroupEntry.decoder
  pure ⟨version, codec, rows, cols, created, groups.toList⟩

/-- Splits off so many bytes; if there are fewer, their number is the failure. -/
def split (count : Nat) (bytes : List UInt8) : Except Nat (List UInt8 × List UInt8) :=
  let taken := bytes.take count
  if taken.length < count then .error taken.length else .ok (taken, bytes.drop count)

/-- The header that the bytes of an archive start with, and the bytes behind it. Bytes inside the
header that it has no use for are skipped. -/
def read (bytes : List UInt8) : Except ArchiveError (Header × List UInt8) := do
  let (found, bytes) ← (split 8 bytes).mapError fun _ => .noMagic
  if found ≠ magic then throw .wrongMagic
  let (sizeBytes, bytes) ← (split 4 bytes).mapError fun _ => .noHeaderSize
  let size := Bytes.toNat sizeBytes
  let (headerBytes, bytes) ← (split size bytes).mapError (.shortHeader size)
  let (header, _) ← (decoder headerBytes).mapError .badHeader
  if header.version ≠ currentVersion then throw (.version header.version)
  pure (header, bytes)

/-- The fixed bytes, the size of the header, and the header. -/
def write (header : Header) : Except ArchiveError (List UInt8) :=
  let bytes := header.toBytes
  if bytes.length > maxIndex then .error .headerTooLarge
  else .ok (magic ++ Bytes.ofNat 4 bytes.length ++ bytes)

/-- Bytes of all payloads, as a number of 64 bits. -/
def payloadSize (header : Header) : Nat :=
  total (header.groups.map GroupEntry.storedSize) % UInt64.size

/-- The number of columns that the groups list, as a number of 64 bits. -/
def coveredColumns (header : Header) : Nat :=
  total (header.groups.map fun entry => entry.columns.length) % UInt64.size

end Header

end PackedMatrix
