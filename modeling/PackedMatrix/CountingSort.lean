namespace PackedMatrix

namespace CountingSort

/-- How many keys there are of each number below a bound, counted one place behind the number. -/
def countBehind (bound : Nat) (keys : List Nat) : Array Nat :=
  keys.foldl (fun counts key => counts.modify (key + 1) (· + 1)) (Array.replicate (bound + 1) 0)

/-- Adds up to so many counts behind the first one, each to the sum in front of it. -/
def sumUp (bound : Nat) (counts : Array Nat) : Array Nat :=
  (List.range bound).foldl (fun sums place =>
    let before := sums.getD place 0
    sums.modify (place + 1) (before + ·)) counts

/-- Where the items of each key start once items are sorted by key, and where the last ones end. -/
def starts (bound : Nat) (keys : List Nat) : Array Nat := sumUp bound (countBehind bound keys)

end CountingSort

end PackedMatrix
