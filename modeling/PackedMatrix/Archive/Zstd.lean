import PackedMatrix.Archive.Digest
import PackedMatrix.Archive.Zstd.Blocks

namespace PackedMatrix

namespace Zstd

/-- Checks what follows the last block, and leaves the bytes behind it. -/
def readChecksum (frame : Frame) (content bytes : List UInt8) :
    Except ZstdError (List UInt8) := do
  if frame.hasChecksum then
    let (stored, bytes) ← takeNat 4 bytes
    if (Digest.ofBytes content).toUInt32.toNat ≠ stored then throw .checksum
    pure bytes
  else pure bytes

/-- What one frame gives. -/
structure Unpacked where
  content : List UInt8
  /-- The bytes behind the frame. -/
  rest : List UInt8
  memory : Memory
  deriving DecidableEq, Repr

def skipFrame (memory : Memory) (bytes : List UInt8) : Except ZstdError Unpacked := do
  let (count, bytes) ← takeNat 4 bytes
  let (_, bytes) ← takeBytes count bytes
  pure ⟨[], bytes, memory.fit ⟨some count, 0, false⟩⟩

def unpackFrame (frame : Frame) (memory : Memory) (bytes : List UInt8) :
    Except ZstdError Unpacked := do
  let fuel := bytes.length + 1
  let atOnce := isAtOnce frame bytes
  if !atOnce && frame.window > maxWindow then throw .window
  let memory := if atOnce then memory else memory.fit frame
  let (output, bytes) ←
    if atOnce then readAtOnce frame fuel bytes #[]
    else readBlocks frame fuel { size := memory.content } bytes #[]
  let bytes ← readChecksum frame output.toList bytes
  pure ⟨output.toList, bytes, memory⟩

def readFrame (memory : Memory) (bytes : List UInt8) : Except ZstdError Unpacked := do
  let (isSkipped, bytes) ← readMagic bytes
  if isSkipped then skipFrame memory bytes
  else
    let (frame, bytes) ← readHeader bytes
    unpackFrame frame memory bytes

/-- Unpacks at most `fuel` frames, one behind the other. -/
def readFrames : Nat → Memory → List UInt8 → Except ZstdError (List UInt8)
  | 0, _, _ => .error .incomplete
  | fuel + 1, memory, bytes => do
    let found ← readFrame memory bytes
    if found.rest.isEmpty then pure found.content
    else
      let others ← readFrames fuel found.memory found.rest
      pure (found.content ++ others)

def unpack (bytes : List UInt8) : Except ZstdError (List UInt8) :=
  readFrames (bytes.length + 1) {} bytes

/-- Cuts bytes into blocks; the last one is marked, and there is one even of no bytes. -/
def blocks : Nat → List UInt8 → List UInt8
  | 0, _ => []
  | fuel + 1, bytes =>
    let block := bytes.take maxBlock
    let rest := bytes.drop maxBlock
    if rest.isEmpty then Bytes.ofNat 3 (block.length * 8 + 1) ++ block
    else Bytes.ofNat 3 (block.length * 8) ++ block ++ blocks fuel rest

/-- Packs bytes as one frame of stored blocks. It does not give their number, and its window is as
large as a block. -/
def pack (bytes : List UInt8) : List UInt8 :=
  magic ++ [0x00, 0x38] ++ blocks (bytes.length + 1) bytes

end Zstd

end PackedMatrix
