import PackedMatrix.Dictionary
import PackedMatrix.Group.Streams
import PackedMatrix.Search
import PackedMatrix.Settings
import PackedMatrix.Total

namespace PackedMatrix

/-- The rows of each tuple, cut into blocks of equal size. A block is stored as the number of its
rows followed by their places in it; blocks behind the last occupied one are left out. -/
structure OffsetStreams where
  blockSize : Nat
  streams : Streams
  deriving DecidableEq, Repr, Inhabited

namespace OffsetStreams

/-- The number of blocks up to the last row of a list. -/
def blocksFor (blockSize : Nat) (list : List Nat) : Nat :=
  match list.getLast? with
  | some last => last / blockSize + 1
  | none => 0

def streamLength (blockSize : Nat) (list : List Nat) : Nat :=
  blocksFor blockSize list + list.length

/-- Encodes so many blocks from number `block` on. A block without rows is stored as well, as a
count of zero. -/
def encodeBlocks (blockSize : Nat) (blocks block : Nat) (rows : List Nat) (words : Array Nat) :
    Array Nat :=
  match blocks with
  | 0 => words
  | blocks + 1 =>
    let inside := rows.takeWhile (· < (block + 1) * blockSize)
    let rest := rows.dropWhile (· < (block + 1) * blockSize)
    let words := inside.foldl (fun words row => words.push (row - block * blockSize))
      (words.push inside.length)
    encodeBlocks blockSize blocks (block + 1) rest words

def encode (blockSize : Nat) (list : List Nat) : List Nat :=
  (encodeBlocks blockSize (blocksFor blockSize list) 0 list #[]).toList

/-- The streams of a bitmap; the pointers to their words have 32 bits. -/
def ofBitmap (bitmap : Bitmap) (blockSize : Nat) : Except PackError OffsetStreams :=
  let words := total (bitmap.lists.map (streamLength blockSize))
  if blockSize = 0 ∨ blockSize > Settings.maxOffsetBlockSize then
    .error (.invariant (.offsetBlockSize blockSize))
  else if words > maxIndex then .error (.invariant (.offsetStreamLength words))
  else .ok ⟨blockSize, .ofLists (bitmap.lists.map (encode blockSize))⟩

/-- Decodes words whose first block starts at row `base`; rows are numbered by 64-bit words. -/
def decode (blockSize base : Nat) (words : List Nat) (rows : Array Nat) :
    Except Fault (Array Nat) :=
  match words with
  | [] => .ok rows
  | count :: rest =>
    let places := rest.take count
    if places.length < count then .error .outOfRange
    else
      decode blockSize ((base + blockSize) % UInt64.size) (rest.drop count)
        (places.foldl (fun rows place => rows.push ((base + place) % UInt64.size)) rows)
termination_by words.length
decreasing_by
  simp only [List.length_drop, List.length_cons]
  omega

/-- The rows of a tuple in the order in which they are stored. -/
def rowsOf (offsets : OffsetStreams) (tuple : Nat) : Except Fault (List Nat) := do
  let words ← offsets.streams.stream tuple
  let rows ← decode offsets.blockSize 0 words #[]
  pure rows.toList

/-- The words behind so many blocks. -/
def skipBlocks (blocks : Nat) (words : List Nat) : List Nat :=
  match blocks, words with
  | 0, words => words
  | _, [] => []
  | blocks + 1, count :: rest => skipBlocks blocks (rest.drop count)

/-- Whether a tuple's words name a place in a block. All places of the block are needed, even those
behind the one that is looked for. -/
def holds (words : List Nat) (block place : Nat) : Except Fault Bool :=
  match skipBlocks block words with
  | [] => .ok false
  | count :: rest =>
    let places := (rest.take count).toArray
    if places.size < count then .error .outOfRange
    else .ok (Search.find? (fun i => compare (places.getD i 0) place) count).isSome

/-- The first of so many tuples from number `tuple` on whose words name a place in a block. -/
def findTuple (offsets : OffsetStreams) (block place : Nat) (count tuple : Nat) :
    Except Fault (Option Nat) :=
  match count with
  | 0 => .ok none
  | count + 1 =>
    match offsets.streams.stream tuple with
    | .error fault => .error fault
    | .ok words =>
      match holds words block place with
      | .error fault => .error fault
      | .ok true => .ok (some tuple)
      | .ok false => findTuple offsets block place count (tuple + 1)

/-- The first of so many tuples that a row belongs to. Places are compared as 16-bit words. -/
def tupleOf (offsets : OffsetStreams) (tuples row : Nat) : Except Fault (Option Nat) :=
  if offsets.blockSize = 0 then .error .zeroDivisor
  else
    offsets.findTuple (row / offsets.blockSize) (row % offsets.blockSize % UInt16.size) tuples 0

/-- The first tuple of a dictionary that a row belongs to. -/
def tupleIn (offsets : OffsetStreams) (dictionary : Dictionary) (row : Nat) :
    Except Fault (Option Nat) := do
  let tuples ← dictionary.count
  offsets.tupleOf tuples row

/-- Checks the streams of so many tuples from number `tuple` on. -/
def checkFrom (offsets : OffsetStreams) (rows count tuple : Nat) : Except Breach Unit :=
  match count with
  | 0 => .ok ()
  | count + 1 =>
    match offsets.rowsOf tuple with
    | .error _ => .error (.offsetStreamEnd tuple)
    | .ok found =>
      match found.find? (· ≥ rows) with
      | some row => .error (.offsetRow row rows)
      | none => checkFrom offsets rows count (tuple + 1)

/-- The pointers fit the tuples, every stream consists of whole blocks, and no row lies outside. -/
def check (offsets : OffsetStreams) (tuples rows : Nat) : Except Breach Unit :=
  if !offsets.streams.pointersFit tuples (fun first last => first ≤ last) then
    .error .offsetPointers
  else offsets.checkFrom rows tuples 0

end OffsetStreams

end PackedMatrix
