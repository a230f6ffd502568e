import Mathlib.Data.List.Nodup
import PackedMatrix.Search

namespace PackedMatrix

namespace Increasing

theorem nodup {list : List Nat} (sorted : list.Pairwise (· < ·)) : list.Nodup :=
  sorted.imp Nat.ne_of_lt

theorem of_le {list : List Nat} (sorted : list.Pairwise (· ≤ ·)) (distinct : list.Nodup) :
    list.Pairwise (· < ·) :=
  (sorted.and distinct).imp fun both => Nat.lt_of_le_of_ne both.1 both.2

theorem le_mergeSort (list : List Nat) : list.mergeSort.Pairwise (· ≤ ·) := by
  have merged : list.mergeSort.Pairwise fun a b => decide (a ≤ b) = true := by
    refine List.pairwise_mergeSort ?_ ?_ list
    · intro a b c
      simp only [decide_eq_true_eq]
      omega
    · intro a b
      simp only [Bool.or_eq_true, decide_eq_true_eq]
      omega
  simpa using merged

theorem mergeSort {list : List Nat} (distinct : list.mergeSort.Nodup) :
    list.mergeSort.Pairwise (· < ·) :=
  of_le (le_mergeSort list) distinct

/-- Sorting forgets the order in which numbers are given. -/
theorem mergeSort_congr {a b : List Nat} (perm : a.Perm b) : a.mergeSort = b.mergeSort := by
  have sorted : a.mergeSort.Perm b.mergeSort :=
    ((List.mergeSort_perm a _).trans perm).trans (List.mergeSort_perm b _).symm
  refine sorted.eq_of_pairwise ?_ (le_mergeSort a) (le_mergeSort b)
  intro x y _ _ first second
  omega

theorem getElem_lt {list : List Nat} (sorted : list.Pairwise (· < ·)) {i j : Nat}
    (before : i < j) (inside : j < list.length) : list[i] < list[j] :=
  List.pairwise_iff_getElem.mp sorted i j (by omega) inside before

theorem getElem_le {list : List Nat} (sorted : list.Pairwise (· < ·)) {i j : Nat}
    (before : i ≤ j) (inside : j < list.length) : list[i] ≤ list[j] := by
  rcases Nat.eq_or_lt_of_le before with rfl | strict
  · exact Nat.le_refl _
  · exact Nat.le_of_lt (getElem_lt sorted strict inside)

theorem idxOf_getElem {list : List Nat} (sorted : list.Pairwise (· < ·)) {i : Nat}
    (inside : i < list.length) : list.idxOf list[i] = i :=
  (nodup sorted).idxOf_getElem i inside

/-- In a list in order the entries up to a bound come first. -/
theorem getElem_le_iff {list : List Nat} (order : list.Pairwise (· ≤ ·)) (bound : Nat) {i : Nat}
    (inside : i < list.length) : list[i] ≤ bound ↔ i < list.countP (· ≤ bound) := by
  induction list generalizing i with
  | nil => simp at inside
  | cons first rest ih =>
    obtain ⟨least, order⟩ := List.pairwise_cons.mp order
    by_cases small : first ≤ bound
    · rw [List.countP_cons_of_pos (by simpa using small)]
      cases i with
      | zero => simp [small]
      | succ i =>
        rw [List.getElem_cons_succ, ih order (by simpa using inside)]
        omega
    · have none : rest.countP (· ≤ bound) = 0 := by
        apply List.countP_eq_zero.mpr
        intro other member
        have := least other member
        simp only [decide_eq_true_eq]
        omega
      rw [List.countP_cons_of_neg (by simpa using small), none]
      cases i with
      | zero => simp [small]
      | succ i =>
        have := least _ (List.getElem_mem (show i < rest.length by simpa using inside))
        rw [List.getElem_cons_succ]
        omega

theorem eq_of_mem_iff {a b : List Nat} (ha : a.Pairwise (· < ·)) (hb : b.Pairwise (· < ·))
    (same : ∀ x, x ∈ a ↔ x ∈ b) : a = b := by
  have perm : a.Perm b := (List.perm_ext_iff_of_nodup (nodup ha) (nodup hb)).mpr same
  refine perm.eq_of_pairwise ?_ ha hb
  intro x y _ _ first second
  omega

/-- Lists of keyed entries with increasing keys are the same when they have the same entries. -/
theorem eq_of_mem_iff_of_keys {α : Type} {a b : List (Nat × α)}
    (ha : (a.map Prod.fst).Pairwise (· < ·)) (hb : (b.map Prod.fst).Pairwise (· < ·))
    (same : ∀ entry, entry ∈ a ↔ entry ∈ b) : a = b := by
  have orderA : a.Pairwise fun x y => x.1 < y.1 := List.pairwise_map.mp ha
  have orderB : b.Pairwise fun x y => x.1 < y.1 := List.pairwise_map.mp hb
  have apart : ∀ {list : List (Nat × α)}, list.Pairwise (fun x y => x.1 < y.1) → list.Nodup := by
    intro list order
    apply order.imp
    intro x y less equal
    rw [equal] at less
    exact Nat.lt_irrefl _ less
  have perm : a.Perm b := (List.perm_ext_iff_of_nodup (apart orderA) (apart orderB)).mpr same
  refine perm.eq_of_pairwise ?_ orderA orderB
  intro x y _ _ first second
  omega

end Increasing

namespace Search

/-- Positions up to some place do not lie above the target and all others do; the search ends at
that place. -/
theorem narrow_eq {compare : Nat → Ordering} {base size place : Nat} (low : base ≤ place)
    (high : place < base + size) (before : ∀ i, base < i → i ≤ place → compare i ≠ .gt)
    (behind : ∀ i, place < i → i < base + size → compare i = .gt) :
    narrow compare base size = place := by
  fun_induction narrow compare base size with
  | case1 base size small => omega
  | case2 base size large half ih =>
    have bound : 0 < half ∧ half ≤ size - half := by omega
    by_cases above : compare (base + half) = .gt
    · have short : place < base + half := by
        by_contra long
        exact before (base + half) (by omega) (by omega) above
      rw [dif_pos above] at ih
      rw [if_pos above]
      exact ih low (by omega) before fun i first second => behind i first (by omega)
    · have long : base + half ≤ place := by
        by_contra short
        exact above (behind (base + half) (by omega) (by omega))
      rw [dif_neg above] at ih
      rw [if_neg above]
      exact ih long (by omega) (fun i first second => before i (by omega) second)
        fun i first second => behind i first (by omega)

/-- The search finds the position that compares equal, if positions before it lie below the target
and those behind it above. -/
theorem find?_eq_some {compare : Nat → Ordering} {size place : Nat} (inside : place < size)
    (equal : compare place = .eq) (before : ∀ i, i < place → compare i = .lt)
    (behind : ∀ i, place < i → i < size → compare i = .gt) : find? compare size = some place := by
  have found : narrow compare 0 size = place := by
    refine narrow_eq (Nat.zero_le _) (by omega) ?_ fun i first second => behind i first (by omega)
    intro i _ upTo
    rcases Nat.eq_or_lt_of_le upTo with rfl | less
    · simp [equal]
    · simp [before i less]
  have nonempty : size ≠ 0 := by omega
  simp [find?, nonempty, found, equal]

theorem find?_eq_none {compare : Nat → Ordering} {size : Nat}
    (differs : ∀ i, i < size → compare i ≠ .eq) : find? compare size = none := by
  cases found : find? compare size with
  | none => rfl
  | some place => exact absurd (compare_of_find? found) (differs place (find?_lt found))

/-- A binary search over an increasing list finds the place of a member and nothing else. -/
theorem find?_increasing {list : List Nat} {at_ : Nat → Nat} {size target : Nat}
    (sorted : list.Pairwise (· < ·)) (length : list.length = size)
    (reads : ∀ i (h : i < list.length), at_ i = list[i]) :
    find? (fun i => compare (at_ i) target) size =
      if target ∈ list then some (list.idxOf target) else none := by
  subst length
  by_cases member : target ∈ list
  · have inside : list.idxOf target < list.length := List.idxOf_lt_length_iff.mpr member
    have here : list[list.idxOf target] = target := List.getElem_idxOf inside
    rw [if_pos member]
    refine find?_eq_some inside ?_ ?_ ?_
    · simp [reads _ inside, here]
    · intro i before
      have less := Increasing.getElem_lt sorted before inside
      rw [here] at less
      rw [reads i (by omega)]
      exact Nat.compare_eq_lt.mpr less
    · intro i behind bound
      have more := Increasing.getElem_lt sorted behind bound
      rw [here] at more
      rw [reads i bound]
      exact Nat.compare_eq_gt.mpr more
  · rw [if_neg member]
    apply find?_eq_none
    intro i bound equal
    rw [reads i bound] at equal
    exact member (Nat.compare_eq_eq.mp equal ▸ List.getElem_mem bound)

theorem getD_toArray {list : List Nat} {i : Nat} (inside : i < list.length) :
    list.toArray.getD i 0 = list[i] := by
  rw [Array.getD_eq_getD_getElem?, List.getElem?_toArray, List.getElem?_eq_getElem inside,
    Option.getD_some]

theorem find?_toArray {list : List Nat} (sorted : list.Pairwise (· < ·)) (target : Nat) :
    find? (fun i => compare (list.toArray.getD i 0) target) list.toArray.size =
      if target ∈ list then some (list.idxOf target) else none :=
  find?_increasing sorted rfl fun _ inside => getD_toArray inside

/-- If exactly the positions below a count satisfy the test, the partition point is that count. -/
theorem partitionPoint_eq {test : Nat → Bool} {size count : Nat} (bound : count ≤ size)
    (before : ∀ i, i < count → test i = true)
    (behind : ∀ i, count ≤ i → i < size → test i = false) : partitionPoint test size = count := by
  unfold partitionPoint
  split
  next empty => omega
  next nonempty =>
    have found : narrow (fun i => if test i then .lt else .gt) 0 size = count - 1 := by
      refine narrow_eq (Nat.zero_le _) (by omega) ?_ ?_
      · intro i first second
        simp [before i (by omega)]
      · intro i first second
        simp [behind i (by omega) (by omega)]
    simp only [found]
    rcases Nat.eq_zero_or_pos count with rfl | positive
    · simp [behind 0 (by omega) (by omega)]
    · simp only [before (count - 1) (by omega), ↓reduceIte]
      omega

end Search

end PackedMatrix
