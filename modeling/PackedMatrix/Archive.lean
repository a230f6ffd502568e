import PackedMatrix.Archive.GroupBytes
import PackedMatrix.Archive.Header
import PackedMatrix.Packed

namespace PackedMatrix

/-- A way to pack bytes and to unpack them. -/
structure Packer (ε : Type) where
  pack : List UInt8 → List UInt8
  unpack : List UInt8 → Except ε (List UInt8)

/-- The packers of the codecs that do not store payloads as they are. -/
structure Packers where
  zstd : Packer ZstdError
  lz4 : Packer Lz4Error

/-- Packers that store bytes as literals and read what other packers made of them. -/
def Packers.standard : Packers := ⟨⟨Zstd.pack, Zstd.unpack⟩, ⟨Lz4.pack, Lz4.unpack⟩⟩

namespace Codec

def pack (codec : Codec) (packers : Packers) (bytes : List UInt8) : List UInt8 :=
  match codec with
  | .plain => bytes
  | .zstd => packers.zstd.pack bytes
  | .lz4 => packers.lz4.pack bytes

def unpack (codec : Codec) (packers : Packers) (group : Nat) (bytes : List UInt8) :
    Except ArchiveError (List UInt8) :=
  match codec with
  | .plain => .ok bytes
  | .zstd => (packers.zstd.unpack bytes).mapError (.badZstd group)
  | .lz4 => (packers.lz4.unpack bytes).mapError (.badLz4 group)

end Codec

namespace Archive

def entry (group : Group) (payload : List UInt8) : GroupEntry where
  encoding := group.encoding
  variant := group.variantName
  columns := group.columns
  storedSize := payload.length
  memorySize := group.size

def payloads (packers : Packers) (packed : Packed) (codec : Codec) : List (List UInt8) :=
  packed.groups.map fun group => codec.pack packers group.toBytes

def header (packed : Packed) (codec : Codec) (created : Timestamp) (payloads : List (List UInt8)) :
    Header where
  version := Header.currentVersion
  codec := codec
  rows := packed.rows
  cols := packed.cols
  created := created
  groups := packed.groups.zipWith entry payloads

/-- The archive of a matrix whose payloads are packed by the given packers. -/
def writeWith (packers : Packers) (packed : Packed) (codec : Codec) (created : Timestamp) :
    Except ArchiveError (List UInt8) :=
  let payloads := payloads packers packed codec
  (header packed codec created payloads).write.map (· ++ payloads.flatMap id)

/-- The archive of a matrix. -/
def write (packed : Packed) (codec : Codec) (created : Timestamp) :
    Except ArchiveError (List UInt8) :=
  writeWith .standard packed codec created

/-- Reads the group of an entry from the front of bytes. -/
def readGroup (packers : Packers) (codec : Codec) (index : Nat) (entry : GroupEntry)
    (bytes : List UInt8) : Except ArchiveError (Group × List UInt8) := do
  let (payload, rest) ←
    (Header.split entry.storedSize bytes).mapError (.shortPayload index entry.storedSize)
  let unpacked ← codec.unpack packers index payload
  let group ← (Group.ofBytes unpacked).mapError (.badGroup index)
  if group.columns ≠ entry.columns then throw (.mismatch index)
  pure (group, rest)

/-- Reads the groups of entries, the first of which has number `index`. -/
def readGroups (packers : Packers) (codec : Codec) (index : Nat) (entries : List GroupEntry)
    (bytes : List UInt8) : Except ArchiveError (List Group × List UInt8) :=
  match entries with
  | [] => .ok ([], bytes)
  | entry :: others => do
    let (group, rest) ← readGroup packers codec index entry bytes
    let (groups, rest) ← readGroups packers codec (index + 1) others rest
    pure (group :: groups, rest)

/-- The matrix that the bytes of an archive start with, and the bytes behind it; its payloads are
unpacked by the given packers. -/
def readWith (packers : Packers) (bytes : List UInt8) :
    Except ArchiveError (Packed × List UInt8) := do
  let (header, rest) ← Header.read bytes
  if header.coveredColumns ≠ header.cols then
    throw (.coverage header.coveredColumns header.cols)
  let (groups, rest) ← readGroups packers header.codec 0 header.groups rest
  let packed ← (Packed.ofGroups header.rows header.cols groups).mapError .invalid
  pure (packed, rest)

/-- The matrix that the bytes of an archive start with, and the bytes behind it. -/
def read (bytes : List UInt8) : Except ArchiveError (Packed × List UInt8) :=
  readWith .standard bytes

end Archive

end PackedMatrix
