import Mathlib.Data.List.Induction
import PackedMatrix.Proofs.Renumbering

namespace PackedMatrix

namespace Bitmap

/-- A list that is longer than all before it and no shorter than all others. -/
structure IsLargest (lists : List (List Nat)) (i : Nat) : Prop where
  inside : i < lists.length
  longest : ∀ j (bound : j < lists.length), lists[j].length ≤ lists[i].length
  first : ∀ j (before : j < i), lists[j].length < lists[i].length

theorem IsLargest.unique {lists : List (List Nat)} {i j : Nat} (hi : IsLargest lists i)
    (hj : IsLargest lists j) : i = j := by
  rcases Nat.lt_trichotomy i j with less | same | more
  · have := hj.first i less
    have := hi.longest j hj.inside
    omega
  · exact same
  · have := hi.first j more
    have := hj.longest i hi.inside
    omega

theorem IsLargest.append_longer {lists : List (List Nat)} {i : Nat} (largest : IsLargest lists i)
    {list : List Nat} (more : (lists.get ⟨i, largest.inside⟩).length < list.length) :
    IsLargest (lists ++ [list]) lists.length := by
  have below : ∀ j (bound : j < lists.length), lists[j].length < list.length :=
    fun j bound => Nat.lt_of_le_of_lt (largest.longest j bound) more
  refine ⟨by simp, ?_, ?_⟩
  · intro j bound
    rw [List.getElem_concat_length rfl]
    rcases Nat.lt_or_ge j lists.length with old | new
    · rw [List.getElem_append_left old]
      exact Nat.le_of_lt (below j old)
    · rw [List.length_append, List.length_singleton] at bound
      obtain rfl : j = lists.length := by omega
      exact Nat.le_of_eq (by rw [List.getElem_concat_length rfl])
  · intro j before
    rw [List.getElem_concat_length rfl, List.getElem_append_left before]
    exact below j before

theorem IsLargest.append_shorter {lists : List (List Nat)} {i : Nat} (largest : IsLargest lists i)
    {list : List Nat} (less : list.length ≤ (lists.get ⟨i, largest.inside⟩).length) :
    IsLargest (lists ++ [list]) i := by
  have inside := largest.inside
  refine ⟨by rw [List.length_append]; omega, ?_, ?_⟩
  · intro j bound
    rw [List.getElem_append_left inside]
    rcases Nat.lt_or_ge j lists.length with old | new
    · rw [List.getElem_append_left old]
      exact largest.longest j old
    · rw [List.length_append, List.length_singleton] at bound
      obtain rfl : j = lists.length := by omega
      rw [List.getElem_concat_length rfl]
      exact less
  · intro j before
    rw [List.getElem_append_left inside, List.getElem_append_left (by omega)]
    exact largest.first j before

theorem isLargest_singleton (list : List Nat) : IsLargest [list] 0 := by
  refine ⟨Nat.one_pos, ?_, ?_⟩
  · intro j bound
    obtain rfl : j = 0 := by simpa using bound
    exact Nat.le_refl _
  · intro j before
    omega

theorem foldl_longer (lists : List (List Nat)) :
    (lists = [] ∧ lists.zipIdx.foldl longer none = none) ∨
      ∃ i, ∃ largest : IsLargest lists i, lists.zipIdx.foldl longer none =
        some (i, (lists.get ⟨i, largest.inside⟩).length) := by
  induction lists using List.reverseRecOn with
  | nil => exact .inl ⟨rfl, rfl⟩
  | append_singleton lists list ih =>
    right
    rw [List.zipIdx_append, List.foldl_append, Nat.zero_add, List.zipIdx_singleton, List.foldl_cons,
      List.foldl_nil]
    rcases ih with ⟨rfl, none⟩ | ⟨i, largest, found⟩
    · exact ⟨0, isLargest_singleton list, by rw [none]; rfl⟩
    · by_cases more : (lists.get ⟨i, largest.inside⟩).length < list.length
      · refine ⟨lists.length, largest.append_longer more, ?_⟩
        rw [found, longer, if_pos more]
        simp
      · refine ⟨i, largest.append_shorter (Nat.le_of_not_lt more), ?_⟩
        rw [found, longer, if_neg more]
        simp [List.getElem_append_left largest.inside]

theorem largest?_eq_some {bitmap : Bitmap} {i length : Nat}
    (h : bitmap.largest? = some (i, length)) :
    IsLargest bitmap.lists i ∧ length = (bitmap.list i).length := by
  rcases foldl_longer bitmap.lists with ⟨_, none⟩ | ⟨j, largest, found⟩
  · rw [largest?, none] at h
    cases h
  · rw [largest?, found] at h
    cases h
    exact ⟨largest, by rw [list_eq_getElem largest.inside, List.get_eq_getElem]⟩

theorem largest?_eq_of_isLargest {bitmap : Bitmap} {i : Nat} (largest : IsLargest bitmap.lists i) :
    bitmap.largest? = some (i, (bitmap.list i).length) := by
  rcases foldl_longer bitmap.lists with ⟨empty, _⟩ | ⟨j, other, found⟩
  · have inside := largest.inside
    rw [empty] at inside
    cases inside
  · obtain rfl := other.unique largest
    rw [largest?, found, list_eq_getElem largest.inside, List.get_eq_getElem]

theorem frequency_trans (a b c : List Nat × Nat) (first : decide (b.1.length ≤ a.1.length) = true)
    (second : decide (c.1.length ≤ b.1.length) = true) :
    decide (c.1.length ≤ a.1.length) = true := by
  rw [decide_eq_true_eq] at *
  exact Nat.le_trans second first

theorem frequency_total (a b : List Nat × Nat) :
    (decide (b.1.length ≤ a.1.length) || decide (a.1.length ≤ b.1.length)) = true := by
  rw [Bool.or_eq_true, decide_eq_true_eq, decide_eq_true_eq]
  exact Nat.le_total _ _

/-- The numbered lists, longer ones first. -/
def byFrequency (lists : List (List Nat)) : List (List Nat × Nat) :=
  lists.zipIdx.mergeSort fun a b => decide (b.1.length ≤ a.1.length)

theorem mem_byFrequency {lists : List (List Nat)} {entry : List Nat × Nat} :
    entry ∈ byFrequency lists ↔ lists[entry.2]? = some entry.1 := by
  rw [byFrequency, (List.mergeSort_perm _ _).mem_iff, List.mem_zipIdx_iff_getElem?]

theorem pairwise_byFrequency (lists : List (List Nat)) :
    (byFrequency lists).Pairwise fun a b => b.1.length ≤ a.1.length :=
  (List.pairwise_mergeSort frequency_trans frequency_total _).imp of_decide_eq_true

theorem nodup_byFrequency (lists : List (List Nat)) : (byFrequency lists).Nodup := by
  refine (List.mergeSort_perm _ _).nodup_iff.mpr (List.Nodup.of_map Prod.snd ?_)
  rw [List.zipIdx_map_snd, ← List.range_eq_range']
  exact List.nodup_range

/-- A stable sort leaves a list behind an earlier one that is no shorter. -/
theorem sublist_byFrequency {lists : List (List Nat)} {i j : Nat} (before : i < j)
    (bound : j < lists.length) (longer : lists[j].length ≤ lists[i].length) :
    [(lists[i], i), (lists[j], j)].Sublist (byFrequency lists) := by
  have all : lists.zipIdx.length = lists.length := List.length_zipIdx
  have listed : ∀ k (bound : k < lists.length) (inside : k < lists.zipIdx.length),
      lists.zipIdx[k] = (lists[k], k) := by
    intro k bound inside
    rw [List.getElem_zipIdx, Nat.zero_add]
  have front : [(lists[i], i)].Sublist (lists.zipIdx.take j) := by
    rw [List.singleton_sublist, ← listed i (by omega) (by omega)]
    exact List.mem_take_iff_getElem.mpr ⟨i, by omega, rfl⟩
  have back : [(lists[j], j)].Sublist (lists.zipIdx.drop j) := by
    rw [List.singleton_sublist, ← listed j bound (by omega), List.drop_eq_getElem_cons (by omega)]
    exact List.mem_cons_self
  have both := front.append back
  rw [List.take_append_drop] at both
  exact List.pair_sublist_mergeSort frequency_trans frequency_total (decide_eq_true longer) both

/-- The first of the longest lists comes first in the order of frequency. -/
theorem head_frequencyOrder {bitmap : Bitmap} {i : Nat} (largest : IsLargest bitmap.lists i) :
    ∃ rest, bitmap.frequencyOrder = i :: rest := by
  have inside := largest.inside
  have unique := nodup_byFrequency bitmap.lists
  have sorted := pairwise_byFrequency bitmap.lists
  have member : (bitmap.lists[i], i) ∈ byFrequency bitmap.lists :=
    mem_byFrequency.mpr (List.getElem?_eq_getElem inside)
  cases order : byFrequency bitmap.lists with
  | nil =>
    rw [order] at member
    cases member
  | cons head rest =>
    refine ⟨rest.map Prod.snd, (congrArg (List.map Prod.snd) order).trans ?_⟩
    rw [List.map_cons]
    congr 1
    by_contra differs
    have first : head ∈ byFrequency bitmap.lists := order ▸ List.mem_cons_self
    obtain ⟨bound, here⟩ := List.getElem?_eq_some_iff.mp (mem_byFrequency.mp first)
    have other : (bitmap.lists[i], i) ≠ head := fun same => differs (congrArg Prod.snd same).symm
    rw [order] at unique sorted member
    have later := (List.mem_cons.mp member).resolve_left other
    have most : bitmap.lists[i].length ≤ head.1.length := (List.pairwise_cons.mp sorted).1 _ later
    rcases Nat.lt_trichotomy i head.2 with less | same | more
    · have pair := sublist_byFrequency less bound (largest.longest _ bound)
      rw [order, here] at pair
      have again := (List.cons_sublist_cons'.mp pair).resolve_right fun both => other both.1
      exact (List.nodup_cons.mp unique).1 (again.subset (by simp))
    · exact differs same.symm
    · have := largest.first _ more
      rw [here] at this
      omega

theorem isLargest_sortByFrequency {bitmap : Bitmap} {i : Nat} (largest : IsLargest bitmap.lists i) :
    IsLargest bitmap.sortByFrequency.lists 0 ∧
      bitmap.sortByFrequency.list 0 = bitmap.list i := by
  have filled : bitmap.lists ≠ [] := by
    intro empty
    have inside := largest.inside
    rw [empty] at inside
    cases inside
  obtain ⟨rest, order⟩ := head_frequencyOrder largest
  have perm := bitmap.frequencyOrder_perm
  have front : bitmap.sortByFrequency.lists = bitmap.list i :: rest.map bitmap.list := by
    rw [sortByFrequency_eq filled, renumber, order, List.map_cons]
  refine ⟨⟨by rw [front]; exact Nat.succ_pos _, ?_, by omega⟩, ?_⟩
  · intro j bound
    have named : bitmap.sortByFrequency.lists[j] ∈ bitmap.lists := by
      have all := (lists_renumber perm).mem_iff (a := bitmap.sortByFrequency.lists[j])
      rw [← sortByFrequency_eq filled] at all
      exact all.mp (List.getElem_mem bound)
    obtain ⟨k, inside, same⟩ := List.mem_iff_getElem.mp named
    have most := largest.longest k inside
    rw [same, ← list_eq_getElem largest.inside] at most
    have some_ : 0 < bitmap.sortByFrequency.lists.length := Nat.zero_lt_of_lt bound
    have head : bitmap.sortByFrequency.lists[0] = bitmap.list i := by
      simp only [front, List.getElem_cons_zero]
    rw [head]
    exact most
  · rw [list, front]
    rfl

end Bitmap

end PackedMatrix
