import PackedMatrix.Archive.Zstd.Frame

namespace PackedMatrix

namespace Zstd

/-- All blocks of a frame are there, and its checksum. -/
def isWhole (frame : Frame) : Nat → List UInt8 → Bool
  | 0, _ => false
  | fuel + 1, bytes =>
    match readBlockHeader bytes with
    | .error _ => false
    | .ok (header, bytes) =>
      let rest := bytes.drop header.stored
      if header.kind = 3 || bytes.length < header.stored then false
      else if header.isLast then !frame.hasChecksum || rest.length ≥ 4
      else isWhole frame fuel rest

/-- The frame is small and there as a whole. -/
def isAtOnce (frame : Frame) (bytes : List UInt8) : Bool :=
  frame.size.any (· ≤ maxAtOnce) && isWhole frame (bytes.length + 1) bytes

/-- Adds the blocks of a frame to the output, at most `fuel` of them. Only the size of the content
bounds a block. -/
def readAtOnce (frame : Frame) : Nat → List UInt8 → Array UInt8 →
    Except ZstdError (Array UInt8 × List UInt8)
  | 0, _, _ => .error .incomplete
  | fuel + 1, bytes, output => do
    let (header, bytes) ← readBlockHeader bytes
    let (stored, bytes) ← takeBytes header.stored bytes
    if header.isCoded then
      throw (if header.count > frame.blockLimit then .blockSize else .corrupted)
    let content := header.content stored
    if output.size + content.length > maxAtOnce then throw .room
    let output := output ++ content
    if !header.isLast then readAtOnce frame fuel bytes output
    else if frame.size.any (· ≠ output.size) then throw .corrupted
    else pure (output, bytes)

/-- Memory that is kept from frame to frame. -/
structure Memory where
  /-- Bytes for a block as it is stored. -/
  block : Nat := 0
  /-- Bytes for content. -/
  content : Nat := 0
  deriving DecidableEq, Repr, Inhabited

/-- The bytes of content that a frame needs to keep: its window and two blocks, unless all of its
content takes less. -/
def Frame.neededContent (frame : Frame) : Nat :=
  let ring := max frame.window minWindow + 2 * frame.blockLimit + 64
  match frame.size with
  | some size => min size ring
  | none => ring

/-- The memory for a frame: what is there, if it is large enough. -/
def Memory.fit (memory : Memory) (frame : Frame) : Memory :=
  let needed : Memory := ⟨max frame.blockLimit 4, frame.neededContent⟩
  if memory.block < needed.block ∨ memory.content < needed.content then needed else memory

/-- The room for the content of a frame. -/
structure Room where
  size : Nat
  used : Nat := 0
  deriving DecidableEq, Repr, Inhabited

/-- The room behind so many more bytes. Room for less than the whole content is filled from its
start again where the next block may not fit. -/
def Room.use (room : Room) (frame : Frame) (count : Nat) : Room :=
  let used := room.used + count
  let isRing := frame.size.all (room.size < ·)
  { room with used := if isRing && used + frame.blockLimit > room.size then 0 else used }

/-- The content of a block that is held by at least one byte, and the bytes behind it. -/
def readContent (frame : Frame) (room : Room) (header : BlockHeader) (bytes : List UInt8) :
    Except ZstdError (List UInt8 × List UInt8) := do
  let stored := bytes.take header.stored
  let content := header.content stored
  if room.used + content.length > room.size then throw .room
  if stored.length < header.stored then throw .incomplete
  if header.isCoded ∨ content.length > frame.blockLimit then throw .corrupted
  pure (content, bytes.drop header.stored)

/-- Adds the blocks of a frame to the output, at most `fuel` of them. The size of the content is
checked behind a last block that is held by at least one byte. -/
def readBlocks (frame : Frame) : Nat → Room → List UInt8 → Array UInt8 →
    Except ZstdError (Array UInt8 × List UInt8)
  | 0, _, _, _ => .error .incomplete
  | fuel + 1, room, bytes, output => do
    let (header, bytes) ← readBlockHeader bytes
    if header.kind = 3 ∨ header.stored > frame.blockLimit then throw .corrupted
    if header.stored = 0 then
      if header.isLast then pure (output, bytes) else readBlocks frame fuel room bytes output
    else
      let (content, bytes) ← readContent frame room header bytes
      let output := output ++ content
      if !header.isLast then readBlocks frame fuel (room.use frame content.length) bytes output
      else if frame.size.any (· ≠ output.size) then throw .corrupted
      else pure (output, bytes)

end Zstd

end PackedMatrix
