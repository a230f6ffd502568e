import PackedMatrix.Archive.Bytes

namespace PackedMatrix

/-- Why an LZ4 block cannot be unpacked. -/
inductive Lz4Error
  | missingByte
  | literalRange
  | outputSize (limit needed : Nat)
  | noDistance
  | distance
  deriving DecidableEq, Repr

def Lz4Error.message : Lz4Error → String
  | missingByte => "expected another byte, found none"
  | literalRange => "literal is out of bounds of the input"
  | outputSize limit needed =>
    s!"provided output is too small for the decompressed data, actual {limit}, expected {needed}"
  | noDistance => "0 is not a valid match offset"
  | distance => "the offset to copy is not contained in the decompressed buffer"

namespace Lz4

def minRepeat : Nat := 4

/-- Adds the bytes of a length that goes on behind its first 15. -/
def readMore (length : Nat) : List UInt8 → Except Lz4Error (Nat × List UInt8)
  | [] => .error .missingByte
  | byte :: rest =>
    if byte = 255 then readMore (length + 255) rest else .ok (length + byte.toNat, rest)

/-- A length whose first part is four bits of a token. -/
def readLength (start : Nat) (input : List UInt8) : Except Lz4Error (Nat × List UInt8) :=
  if start = 15 then readMore 15 input else .ok (start, input)

/-- Copies so many bytes of the output, one at a time, so that a repetition may overlap itself. -/
def repeatBytes (distance : Nat) : Nat → Array UInt8 → Array UInt8
  | 0, output => output
  | count + 1, output =>
    repeatBytes distance count (output.push (output.getD (output.size - distance) 0))

def copyLiterals (limit count : Nat) (input : List UInt8) (output : Array UInt8) :
    Except Lz4Error (List UInt8 × Array UInt8) :=
  let literals := input.take count
  if literals.length < count then .error .literalRange
  else if output.size + count > limit then .error (.outputSize limit (output.size + count))
  else .ok (input.drop count, output ++ literals)

/-- Repeats what the second part of a sequence names. -/
def copyRepeat (limit start : Nat) (input : List UInt8) (output : Array UInt8) :
    Except Lz4Error (List UInt8 × Array UInt8) :=
  match input with
  | low :: high :: rest =>
    let distance := low.toNat + 256 * high.toNat
    if distance = 0 then .error .noDistance
    else
      match readLength start rest with
      | .error error => .error error
      | .ok (length, rest) =>
        let count := length + minRepeat
        if output.size + count > limit then .error (.outputSize limit (output.size + count))
        else if distance > output.size then .error .distance
        else .ok (rest, repeatBytes distance count output)
  | _ => .error .missingByte

/-- Unpacks at most `fuel` sequences into an output of at most `limit` bytes. -/
def unpackBlock (limit : Nat) : Nat → List UInt8 → Array UInt8 → Except Lz4Error (Array UInt8)
  | 0, _, _ => .error .missingByte
  | _, [], _ => .error .missingByte
  | fuel + 1, token :: rest, output =>
    match readLength (token.toNat / 16) rest with
    | .error error => .error error
    | .ok (count, rest) =>
      match copyLiterals limit count rest output with
      | .error error => .error error
      | .ok ([], output) => .ok output
      | .ok (rest, output) =>
        match copyRepeat limit (token.toNat % 16) rest output with
        | .error error => .error error
        | .ok (rest, output) => unpackBlock limit fuel rest output

/-- Unpacks a block behind its size, which is a bound for the output. Every sequence takes a byte,
so the number of bytes bounds that of sequences. -/
def unpack (bytes : List UInt8) : Except Lz4Error (List UInt8) :=
  match Decoder.nat 4 bytes with
  | .error _ => .error .missingByte
  | .ok (limit, block) => (unpackBlock limit (block.length + 1) block #[]).map Array.toList

/-- The part of a length behind its first 15. -/
def moreBytes (length : Nat) : List UInt8 :=
  List.replicate (length / 255) 255 ++ [UInt8.ofNat (length % 255)]

/-- Packs bytes as one sequence of literals, behind their number. -/
def pack (bytes : List UInt8) : List UInt8 :=
  let count := bytes.length
  let length := if count < 15 then [UInt8.ofNat (count * 16)] else 240 :: moreBytes (count - 15)
  Bytes.ofNat 4 count ++ length ++ bytes

end Lz4

end PackedMatrix
