import PackedMatrix.Block
import PackedMatrix.Fault
import PackedMatrix.Search
import PackedMatrix.Total

namespace PackedMatrix

/-- Gap words of one width. -/
inductive GapStream
  | byte (words : Array UInt8)
  | half (words : Array UInt16)
  deriving DecidableEq, Repr, Inhabited

namespace GapStream

/-- The largest gap that fits one word; the word zero adds as much and goes on. -/
def maxGap : GapStream → Nat
  | byte _ => 255
  | half _ => 65535

def bits : GapStream → Nat
  | byte _ => 8
  | half _ => 16

def length : GapStream → Nat
  | byte words => words.size
  | half words => words.size

def size (gaps : GapStream) : Nat := gaps.length * (gaps.bits / 8)

def word? : GapStream → Nat → Option Nat
  | byte words, position => words[position]?.map UInt8.toNat
  | half words, position => words[position]?.map UInt16.toNat

def toList : GapStream → List Nat
  | byte words => words.toList.map UInt8.toNat
  | half words => words.toList.map UInt16.toNat

theorem lt_length_of_word? {gaps : GapStream} {position word : Nat}
    (h : gaps.word? position = some word) : position < gaps.length := by
  cases gaps <;>
  · obtain ⟨value, found, _⟩ := Option.map_eq_some_iff.mp h
    exact (Array.getElem?_eq_some_iff.mp found).1

end GapStream

/-- An entry's row and the stream position behind its gap. -/
structure Anchor where
  row : UInt32
  position : UInt32
  deriving DecidableEq, Repr, Inhabited

/-- An increasing list of rows, gap by gap. Every 64th entry has an anchor, so that a lookup decodes
a short stretch only. -/
structure RowIndex where
  gaps : GapStream
  anchors : Array Anchor
  length : Nat
  deriving DecidableEq, Repr, Inhabited

/-- A place in a gap stream: the row reached and the position of the next gap. -/
structure GapCursor where
  row : Nat
  position : Nat
  deriving DecidableEq, Repr

namespace GapStream

/-- Adds the gap at the cursor to its row. A word of zero stands for the largest gap, behind which
the gap goes on. -/
def step (gaps : GapStream) (cursor : GapCursor) : Except Fault GapCursor :=
  match h : gaps.word? cursor.position with
  | none => .error .outOfRange
  | some word =>
    let row := cursor.row + if word = 0 then gaps.maxGap else word
    if row > maxIndex then .error .overflow
    else if word = 0 then step gaps ⟨row, cursor.position + 1⟩
    else .ok ⟨row, cursor.position + 1⟩
termination_by gaps.length - cursor.position
decreasing_by
  have := lt_length_of_word? h
  omega

end GapStream

namespace RowIndex

/-- The number of entries between two anchors. -/
def anchorInterval : Nat := 64

/-- The number of anchors for so many entries. -/
def anchorsFor (length : Nat) : Nat := (length + 63) / 64

def headerSize : Nat := 32

def anchorSize : Nat := 8

/-- The words of one gap: a zero for each full stretch, then what is left. -/
def gapWords (maxGap gap : Nat) : List Nat :=
  let markers := (gap - 1) / maxGap
  List.replicate markers 0 ++ [gap - markers * maxGap]

/-- The number of words of an increasing list. -/
def streamLength (maxGap : Nat) (rows : List Nat) : Nat :=
  total ((rows.zip (rows.drop 1)).map fun pair => 1 + (pair.2 - pair.1 - 1) / maxGap)

/-- The words and anchors of the rows encoded so far. -/
structure Encoder where
  words : Array Nat
  anchors : Array Anchor
  last : Option Nat
  count : Nat

namespace Encoder

def start : Encoder := ⟨#[], #[], none, 0⟩

/-- Appends a row behind the last one. -/
def add (maxGap : Nat) (encoder : Encoder) (row : Nat) : Encoder :=
  let words := match encoder.last with
    | none => encoder.words
    | some last => encoder.words ++ (gapWords maxGap (row - last)).toArray
  let anchors :=
    if encoder.count % anchorInterval = 0 then
      encoder.anchors.push ⟨UInt32.ofNat row, UInt32.ofNat words.size⟩
    else encoder.anchors
  ⟨words, anchors, some row, encoder.count + 1⟩

end Encoder

/-- Encodes an increasing list, in bytes unless 16-bit words take less space. -/
def ofRows (rows : List Nat) : RowIndex :=
  if streamLength 255 rows ≤ streamLength 65535 rows * 2 then
    let encoder := rows.foldl (Encoder.add 255) .start
    ⟨.byte (encoder.words.map UInt8.ofNat), encoder.anchors, encoder.count⟩
  else
    let encoder := rows.foldl (Encoder.add 65535) .start
    ⟨.half (encoder.words.map UInt16.ofNat), encoder.anchors, encoder.count⟩

/-- Bytes that the index of an increasing list takes. -/
def sizeOfRows (rows : List Nat) : Nat :=
  headerSize + min (streamLength 255 rows) (streamLength 65535 rows * 2) +
    anchorsFor rows.length * anchorSize

def size (index : RowIndex) : Nat :=
  headerSize + index.gaps.size + index.anchors.size * anchorSize

/-- Decodes so many rows from the cursor on. No gap follows the last row. -/
def decode (gaps : GapStream) (count : Nat) (cursor : GapCursor) (rows : Array Nat) :
    Except Fault (Array Nat) :=
  match count with
  | 0 => .ok rows
  | 1 => .ok (rows.push cursor.row)
  | count + 2 =>
    match gaps.step cursor with
    | .error fault => .error fault
    | .ok next => decode gaps (count + 1) next (rows.push cursor.row)

/-- The rows of an index. The first one has no gap in front of it; only its anchor tells it. -/
def rows (index : RowIndex) : Except Fault (List Nat) :=
  match index.anchors[0]? with
  | none => .ok []
  | some anchor =>
    (decode index.gaps index.length ⟨anchor.row.toNat, 0⟩ #[]).map Array.toList

/-- Walks from entry `ordinal` at the cursor to the entry of the target row. Rows increase, so the
target is not met any more behind a larger one. -/
def walk (index : RowIndex) (target ordinal : Nat) (cursor : GapCursor) :
    Except Fault (Option Nat) :=
  if cursor.row = target then .ok (some ordinal)
  else if cursor.row > target ∨ ordinal + 1 ≥ index.length then .ok none
  else
    match index.gaps.step cursor with
    | .error fault => .error fault
    | .ok next => walk index target (ordinal + 1) next
termination_by index.length - ordinal

/-- The place of a row in the list, from the last anchor that is not behind it. -/
def ordinal? (index : RowIndex) (row : Nat) : Except Fault (Option Nat) :=
  let before := Search.partitionPoint
    (fun i => (index.anchors.getD i default).row.toNat ≤ row) index.anchors.size
  if before = 0 then .ok none
  else
    let anchor := index.anchors.getD (before - 1) default
    index.walk row ((before - 1) * anchorInterval) ⟨anchor.row.toNat, anchor.position.toNat⟩

/-- An anchor, where one belongs, names its entry's row and the position behind its gap. -/
def anchorAgrees (index : RowIndex) (entry : Nat) (cursor : GapCursor) : Bool :=
  if entry % anchorInterval = 0 then
    match index.anchors[entry / anchorInterval]? with
    | some anchor => anchor.row.toNat == cursor.row && anchor.position.toNat == cursor.position
    | none => false
  else true

/-- Checks the entries from `entry` on, which lies at the cursor. -/
def checkFrom (index : RowIndex) (entry : Nat) (cursor : GapCursor) : Except RowIndexError Unit :=
  if index.anchorAgrees entry cursor = false then .error (.anchor (entry / anchorInterval))
  else if entry + 1 < index.length then
    match index.gaps.step cursor with
    | .error .overflow => .error (.overflow (entry + 1))
    | .error _ => .error (.truncated (entry + 1))
    | .ok next => checkFrom index (entry + 1) next
  else if cursor.position ≠ index.gaps.length then
    .error (.trailing (index.gaps.length - cursor.position))
  else .ok ()
termination_by index.length - entry

/-- The stream decodes to as many rows as the index claims, and the anchors agree with it. -/
def check (index : RowIndex) : Except RowIndexError Unit :=
  if index.anchors.size ≠ anchorsFor index.length then
    .error (.anchorCount index.anchors.size index.length)
  else
    match index.anchors[0]? with
    | none => if index.gaps.length ≠ 0 then .error .strayGaps else .ok ()
    | some anchor => index.checkFrom 0 ⟨anchor.row.toNat, 0⟩

def validate (index : RowIndex) : Except PackError Unit :=
  index.check.mapError fun cause => .invariant (.rowIndex cause)

end RowIndex

end PackedMatrix
