import PackedMatrix.Archive.Bytes

namespace PackedMatrix

namespace Digest

def prime1 : UInt64 := 0x9e3779b185ebca87

def prime2 : UInt64 := 0xc2b2ae3d27d4eb4f

def prime3 : UInt64 := 0x165667b19e3779f9

def prime4 : UInt64 := 0x85ebca77c2b2ae63

def prime5 : UInt64 := 0x27d4eb2f165667c5

/-- Moves the bits up by so many places; those that leave at the top come back at the bottom. -/
def rotate (value places : UInt64) : UInt64 := (value <<< places) ||| (value >>> (64 - places))

def word (bytes : List UInt8) : UInt64 := UInt64.ofNat (Bytes.toNat bytes)

/-- A lane with one more word. -/
def feed (lane input : UInt64) : UInt64 := rotate (lane + input * prime2) 31 * prime1

/-- The four lanes. -/
structure Lanes where
  first : UInt64 := prime1 + prime2
  second : UInt64 := prime2
  third : UInt64 := 0
  fourth : UInt64 := 0 - prime1
  deriving DecidableEq, Repr

namespace Lanes

/-- The lanes with one more stripe. -/
def feed (lanes : Lanes) (stripe : List UInt8) : Lanes where
  first := Digest.feed lanes.first (word (stripe.take 8))
  second := Digest.feed lanes.second (word ((stripe.drop 8).take 8))
  third := Digest.feed lanes.third (word ((stripe.drop 16).take 8))
  fourth := Digest.feed lanes.fourth (word ((stripe.drop 24).take 8))

/-- One word for all lanes. -/
def join (lanes : Lanes) : UInt64 :=
  let start := rotate lanes.first 1 + rotate lanes.second 7 + rotate lanes.third 12 +
    rotate lanes.fourth 18
  [lanes.first, lanes.second, lanes.third, lanes.fourth].foldl
    (fun state lane => (state ^^^ Digest.feed 0 lane) * prime1 + prime4) start

end Lanes

/-- Feeds all full stripes; what is left stays. -/
def feedStripes : Nat → Lanes → List UInt8 → Lanes × List UInt8
  | 0, lanes, bytes => (lanes, bytes)
  | fuel + 1, lanes, bytes =>
    let stripe := bytes.take 32
    if stripe.length < 32 then (lanes, bytes)
    else feedStripes fuel (lanes.feed stripe) (bytes.drop 32)

/-- Mixes in the last bytes, which are fewer than a stripe. -/
def mixTail : Nat → UInt64 → List UInt8 → UInt64
  | 0, state, _ => state
  | fuel + 1, state, bytes =>
    match bytes with
    | [] => state
    | byte :: rest =>
      if bytes.length ≥ 8 then
        let state := state ^^^ feed 0 (word (bytes.take 8))
        mixTail fuel (rotate state 27 * prime1 + prime4) (bytes.drop 8)
      else if bytes.length ≥ 4 then
        let state := state ^^^ (word (bytes.take 4) * prime1)
        mixTail fuel (rotate state 23 * prime2 + prime3) (bytes.drop 4)
      else mixTail fuel (rotate (state ^^^ (byte.toUInt64 * prime5)) 11 * prime1) rest

/-- Spreads every bit over the word. -/
def spread (state : UInt64) : UInt64 :=
  let state := (state ^^^ (state >>> 33)) * prime2
  let state := (state ^^^ (state >>> 29)) * prime3
  state ^^^ (state >>> 32)

def ofBytes (bytes : List UInt8) : UInt64 :=
  let count := bytes.length
  let (lanes, tail) := feedStripes count {} bytes
  let start := if count < 32 then prime5 else lanes.join
  spread (mixTail 32 (start + UInt64.ofNat count) tail)

end Digest

end PackedMatrix
