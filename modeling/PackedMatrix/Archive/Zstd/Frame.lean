import PackedMatrix.Archive.Bytes

namespace PackedMatrix

/-- Why a Zstandard frame cannot be unpacked. -/
inductive ZstdError
  | incomplete
  | magic
  | corrupted
  | unsupported
  | window
  | dictionary
  | checksum
  /-- A coded block is larger than a block of its frame may be. -/
  | blockSize
  /-- A block does not fit into the room for the content. -/
  | room
  deriving DecidableEq, Repr

def ZstdError.message : ZstdError → String
  | incomplete => "incomplete frame"
  | magic => "Unknown frame descriptor"
  | corrupted => "Data corruption detected"
  | unsupported => "Unsupported frame parameter"
  | window => "Frame requires too much memory for decoding"
  | dictionary => "Dictionary mismatch"
  | checksum => "Restored data doesn't match checksum"
  | blockSize => "Src size is incorrect"
  | room => "Destination buffer is too small"

namespace Zstd

def magic : List UInt8 := [0x28, 0xb5, 0x2f, 0xfd]

/-- What frames to be skipped start with; the low four bits of the first byte may be any. -/
def skipMagic : List UInt8 := [0x50, 0x2a, 0x4d, 0x18]

/-- Without the low four bits of the first byte. -/
def dropLowBits : List UInt8 → List UInt8
  | first :: rest => (first &&& 0xf0) :: rest
  | [] => []

def maxBlock : Nat := 131072

def minWindow : Nat := 1024

/-- The largest window that a frame may ask for. -/
def maxWindow : Nat := 134217729

/-- The largest exponent of a window that can be described, above the tenth power of two. -/
def maxWindowExponent : Nat := 21

/-- The largest content that is unpacked in one go. -/
def maxAtOnce : Nat := 8192

def takeBytes (count : Nat) (bytes : List UInt8) : Except ZstdError (List UInt8 × List UInt8) :=
  let taken := bytes.take count
  if taken.length < count then .error .incomplete else .ok (taken, bytes.drop count)

def takeNat (width : Nat) (bytes : List UInt8) : Except ZstdError (Nat × List UInt8) :=
  (takeBytes width bytes).map fun taken => (Bytes.toNat taken.1, taken.2)

/-- The bytes behind the magic number of a frame, and whether the frame is to be skipped. Bytes that
are too few for a magic number have to be the start of one. -/
def readMagic (bytes : List UInt8) : Except ZstdError (Bool × List UInt8) :=
  let found := bytes.take 4
  let isFrame := found == magic.take found.length
  let isSkipped := dropLowBits found == skipMagic.take found.length
  if !isFrame && !isSkipped then .error .magic
  else if found.length < 4 then .error .incomplete
  else .ok (isSkipped, bytes.drop 4)

/-- What the header of a frame says about its content. -/
structure Frame where
  /-- The size of the content, if it is given. -/
  size : Option Nat
  /-- The window that the frame asks for. -/
  window : Nat
  /-- A checksum follows the last block. -/
  hasChecksum : Bool
  deriving DecidableEq, Repr

/-- The largest block of a frame. -/
def Frame.blockLimit (frame : Frame) : Nat := min maxBlock frame.window

/-- The window that a byte of exponent and mantissa describes. -/
def windowSize (code : Nat) : Nat :=
  let base := 1 <<< (10 + code / 8)
  base + base / 8 * (code % 8)

/-- The header of a frame behind its magic number. It is looked at once all of it is there. The
largest number of 64 bits is no size. -/
def readHeader (bytes : List UInt8) : Except ZstdError (Frame × List UInt8) := do
  let (flags, bytes) ← takeNat 1 bytes
  let single := flags / 32 % 2 == 1
  let (windowCode, bytes) ← if single then pure (0, bytes) else takeNat 1 bytes
  let (dictionary, bytes) ← takeNat ([0, 1, 2, 4].getD (flags % 4) 0) bytes
  let width := if flags / 64 = 0 then (if single then 1 else 0) else 1 <<< (flags / 64)
  let (stored, bytes) ← takeNat width bytes
  let stored := if width = 2 then stored + 256 else stored
  let size := if width = 0 ∨ stored + 1 = UInt64.size then none else some stored
  let window := if single then stored else windowSize windowCode
  if flags / 8 % 2 = 1 then throw .unsupported
  if windowCode / 8 > maxWindowExponent then throw .window
  if dictionary ≠ 0 then throw .dictionary
  pure (⟨size, window, flags / 4 % 2 == 1⟩, bytes)

/-- What the three bytes in front of a block say. -/
structure BlockHeader where
  isLast : Bool
  kind : Nat
  count : Nat
  deriving DecidableEq, Repr

def BlockHeader.ofNat (code : Nat) : BlockHeader := ⟨code % 2 == 1, code / 2 % 4, code / 8⟩

/-- The number of bytes that hold a block. -/
def BlockHeader.stored (header : BlockHeader) : Nat :=
  if header.kind = 1 then 1 else header.count

/-- The bytes of the block do not show its content. -/
def BlockHeader.isCoded (header : BlockHeader) : Bool := header.kind ≥ 2

/-- What the bytes that hold a block stand for, unless it is coded. -/
def BlockHeader.content (header : BlockHeader) (stored : List UInt8) : List UInt8 :=
  if header.isCoded then []
  else if header.kind = 1 then stored.flatMap (List.replicate header.count)
  else stored

def readBlockHeader (bytes : List UInt8) : Except ZstdError (BlockHeader × List UInt8) :=
  (takeNat 3 bytes).map fun taken => (BlockHeader.ofNat taken.1, taken.2)

end Zstd

end PackedMatrix
