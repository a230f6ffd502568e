import PackedMatrix.Error

namespace PackedMatrix

/-- One code for each entry, in one of four widths. Codes of one bit are packed into 64-bit words,
lowest bit first. -/
inductive CodeMap
  | bit (words : Array UInt64) (length : Nat)
  | byte (codes : Array UInt8)
  | half (codes : Array UInt16)
  | word (codes : Array UInt32)
  deriving DecidableEq, Repr, Inhabited

namespace CodeMap

/-- The number of 64-bit words for so many bits. -/
def wordsFor (length : Nat) : Nat := (length + 63) / 64

/-- A map of zeros that can hold the codes of so many tuples. -/
def create (length tuples : Nat) : CodeMap :=
  if tuples ≤ 1 then .bit (Array.replicate (wordsFor length) 0) length
  else if tuples ≤ 256 then .byte (Array.replicate length 0)
  else if tuples ≤ 65535 then .half (Array.replicate length 0)
  else .word (Array.replicate length 0)

/-- Bytes of bookkeeping for every map. -/
def headerSize : Nat := 24

def estimateSize (length tuples : Nat) : Nat :=
  headerSize +
    if tuples ≤ 1 then wordsFor length * 8
    else if tuples ≤ 256 then length
    else if tuples ≤ 65535 then length * 2
    else length * 4

/-- Bytes that the map takes. -/
def size : CodeMap → Nat
  | bit words _ => headerSize + words.size * 8
  | byte codes => headerSize + codes.size
  | half codes => headerSize + codes.size * 2
  | word codes => headerSize + codes.size * 4

def length : CodeMap → Nat
  | bit _ length => length
  | byte codes => codes.size
  | half codes => codes.size
  | word codes => codes.size

def bits : CodeMap → Nat
  | bit .. => 1
  | byte _ => 8
  | half _ => 16
  | word _ => 32

def maxCode (codes : CodeMap) : Nat := (1 <<< codes.bits) - 1

/-- The code of an entry, if the map stores one there. -/
def get? : CodeMap → Nat → Option Nat
  | bit words _, i => words[i / 64]?.map fun w => ((w >>> (UInt64.ofNat (i % 64))) &&& 1).toNat
  | byte codes, i => codes[i]?.map UInt8.toNat
  | half codes, i => codes[i]?.map UInt16.toNat
  | word codes, i => codes[i]?.map UInt32.toNat

/-- Sets or clears one bit of a word. -/
def putBit (word : UInt64) (place : Nat) (on : Bool) : UInt64 :=
  let mask := (1 : UInt64) <<< UInt64.ofNat place
  if on then word ||| mask else word &&& ~~~mask

/-- Stores the low bits of a code. -/
def set (codes : CodeMap) (i code : Nat) : CodeMap :=
  match codes with
  | bit words length => .bit (words.modify (i / 64) (putBit · (i % 64) (code % 2 == 1))) length
  | byte codes => .byte (codes.setIfInBounds i (UInt8.ofNat code))
  | half codes => .half (codes.setIfInBounds i (UInt16.ofNat code))
  | word codes => .word (codes.setIfInBounds i (UInt32.ofNat code))

/-- The word with its low `count` bits set; all of them when `count` is zero. -/
def lowBits (count : Nat) : UInt64 :=
  if count = 0 then 0xffffffffffffffff else (1 <<< UInt64.ofNat count) - 1

/-- Stores one code in every entry. The last word is filled up to the last entry only, so that bits
behind it stay clear. -/
def fill (codes : CodeMap) (code : Nat) : CodeMap :=
  match codes with
  | bit words length =>
    if code % 2 = 1 then
      let full := words.map fun _ => lowBits 0
      .bit (full.modify (full.size - 1) fun _ => lowBits (length % 64)) length
    else .bit (words.map fun _ => 0) length
  | byte codes => .byte (codes.map fun _ => UInt8.ofNat code)
  | half codes => .half (codes.map fun _ => UInt16.ofNat code)
  | word codes => .word (codes.map fun _ => UInt32.ofNat code)

def toList (codes : CodeMap) : List Nat :=
  (List.range codes.length).map fun i => (codes.get? i).getD 0

/-- The largest code, if there is an entry. -/
def maxCode? (codes : CodeMap) : Option Nat := codes.toList.max?

/-- Words that hold exactly the bits of the entries. -/
def validate : CodeMap → Except PackError Unit
  | bit words length =>
    if words.size = wordsFor length then .ok ()
    else .error (.invariant (.bitWords length words.size))
  | _ => .ok ()

/-- A map with the given codes, able to hold those of so many tuples. -/
def ofList (tuples : Nat) (codes : List Nat) : CodeMap :=
  codes.zipIdx.foldl (fun made entry => made.set entry.2 entry.1) (create codes.length tuples)

end CodeMap

end PackedMatrix
