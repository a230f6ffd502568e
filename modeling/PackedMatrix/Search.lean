namespace PackedMatrix.Search

/-- Halves `size` positions from `base` on until one is left: a middle position that does not lie
above the target becomes the new base. -/
def narrow (compare : Nat → Ordering) (base size : Nat) : Nat :=
  if size ≤ 1 then base
  else
    let half := size / 2
    narrow compare (if compare (base + half) = .gt then base else base + half) (size - half)
termination_by size
decreasing_by omega

/-- A position below `size` that compares equal, if the search ends at one. -/
def find? (compare : Nat → Ordering) (size : Nat) : Option Nat :=
  if size = 0 then none
  else
    let position := narrow compare 0 size
    if compare position = .eq then some position else none

/-- The number of leading positions below `size` that satisfy the test. -/
def partitionPoint (test : Nat → Bool) (size : Nat) : Nat :=
  if size = 0 then 0
  else
    let position := narrow (fun i => if test i then .lt else .gt) 0 size
    if test position then position + 1 else position

theorem narrow_lt (compare : Nat → Ordering) {base size : Nat} (h : 0 < size) :
    narrow compare base size < base + size := by
  fun_induction narrow compare base size with
  | case1 base size small => omega
  | case2 base size large half ih =>
    have step := ih (by omega)
    have moved : (if compare (base + half) = .gt then base else base + half) ≤ base + half := by
      split <;> omega
    have kept : half + (size - half) = size := by omega
    calc
      _ < (if compare (base + half) = .gt then base else base + half) + (size - half) := step
      _ ≤ base + half + (size - half) := Nat.add_le_add_right moved _
      _ = base + size := by rw [Nat.add_assoc, kept]

theorem find?_lt {compare : Nat → Ordering} {size position : Nat}
    (h : find? compare size = some position) : position < size := by
  unfold find? at h
  split at h
  next => simp at h
  next nonempty =>
    have bound : narrow compare 0 size < 0 + size := narrow_lt compare (Nat.pos_of_ne_zero nonempty)
    simp only at h
    split at h
    next => cases h; omega
    next => simp at h

theorem compare_of_find? {compare : Nat → Ordering} {size position : Nat}
    (h : find? compare size = some position) : compare position = .eq := by
  unfold find? at h
  split at h
  next => simp at h
  next =>
    simp only at h
    split at h
    next equal => cases h; exact equal
    next => simp at h

end PackedMatrix.Search
