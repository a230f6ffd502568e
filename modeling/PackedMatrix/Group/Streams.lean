import PackedMatrix.Error
import PackedMatrix.Fault

namespace PackedMatrix

/-- Streams of words: stream `i` lies between pointers `i` and `i + 1`. -/
structure Streams where
  ptr : Array UInt32
  data : Array UInt16
  deriving DecidableEq, Repr, Inhabited

namespace Streams

/-- The streams of the given words. -/
def ofLists (streams : List (List Nat)) : Streams where
  ptr := (streams.foldl
    (fun (pointers : Array Nat) stream => pointers.push (pointers.back?.getD 0 + stream.length))
    #[0]).map UInt32.ofNat
  data := ((streams.flatMap id).map UInt16.ofNat).toArray

def stream (streams : Streams) (tuple : Nat) : Except Fault (List Nat) :=
  match streams.ptr[tuple]?, streams.ptr[tuple + 1]? with
  | some first, some last =>
    if first.toNat ≤ last.toNat ∧ last.toNat ≤ streams.data.size then
      .ok ((streams.data.extract first.toNat last.toNat).toList.map UInt16.toNat)
    else .error .outOfRange
  | _, _ => .error .outOfRange

def size (streams : Streams) : Nat := streams.ptr.size * 4 + streams.data.size * 2

/-- There is one pointer more than tuples, neighbouring pointers satisfy the test, and the last one
is the number of words. -/
def pointersFit (streams : Streams) (tuples : Nat) (test : Nat → Nat → Bool) : Bool :=
  let pointers := streams.ptr.toList.map UInt32.toNat
  pointers.length == tuples + 1 &&
    (pointers.zip (pointers.drop 1)).all (fun pair => test pair.1 pair.2) &&
    pointers.getLast? == some streams.data.size

end Streams

end PackedMatrix
