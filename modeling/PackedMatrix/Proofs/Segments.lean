import Mathlib.Data.List.Basic
import PackedMatrix.Total

namespace PackedMatrix

namespace Segments

variable {α : Type}

/-- The place at which a list starts: the lists before it lie there already. -/
def offset (lists : List (List α)) (i : Nat) : Nat := total ((lists.take i).map List.length)

@[simp] theorem offset_zero (lists : List (List α)) : offset lists 0 = 0 := by
  simp [offset]

@[simp] theorem offset_cons_succ (list : List α) (rest : List (List α)) (i : Nat) :
    offset (list :: rest) (i + 1) = list.length + offset rest i := by
  simp [offset]

theorem offset_succ {lists : List (List α)} {i : Nat} (inside : i < lists.length) :
    offset lists (i + 1) = offset lists i + lists[i].length := by
  rw [offset, offset, List.take_add_one, List.getElem?_eq_getElem inside]
  simp only [Option.toList_some, List.map_append, total_append, List.map_cons, List.map_nil,
    total_cons, total_nil, Nat.add_zero]

theorem length_flatten (lists : List (List α)) :
    lists.flatten.length = total (lists.map List.length) := by
  induction lists with
  | nil => rfl
  | cons list rest ih => simp [ih]

theorem offset_length (lists : List (List α)) :
    offset lists lists.length = lists.flatten.length := by
  rw [offset, List.take_length, length_flatten]

theorem offset_append_left (front back : List (List α)) {i : Nat} (inside : i ≤ front.length) :
    offset (front ++ back) i = offset front i := by
  rw [offset, List.take_append_of_le_length inside, offset]

theorem offset_mono (lists : List (List α)) {i j : Nat} (order : i ≤ j) :
    offset lists i ≤ offset lists j := by
  have split : lists.take j = lists.take i ++ (lists.take j).drop i := by
    conv => lhs; rw [← List.take_append_drop i (lists.take j)]
    rw [List.take_take, Nat.min_eq_left order]
  rw [offset, offset, split, List.map_append, total_append]
  omega

theorem offset_le_length (lists : List (List α)) (i : Nat) :
    offset lists i ≤ lists.flatten.length := by
  rcases Nat.le_total i lists.length with inside | outside
  · rw [← offset_length]
    exact offset_mono lists inside
  · have whole : offset lists i = offset lists lists.length := by
      rw [offset, offset, List.take_of_length_le outside, List.take_length]
    exact Nat.le_of_eq (whole.trans (offset_length lists))

/-- Lists of equal length start at multiples of that length. -/
theorem offset_of_width {lists : List (List α)} {width i : Nat}
    (equal : ∀ list ∈ lists, list.length = width) (inside : i ≤ lists.length) :
    offset lists i = i * width := by
  induction i with
  | zero => simp
  | succ i ih =>
    rw [offset_succ (by omega), ih (by omega), equal _ (List.getElem_mem _), Nat.succ_mul]

/-- Between two neighbouring pointers lie the entries of one list. -/
theorem take_drop_flatten {lists : List (List α)} {i : Nat} (inside : i < lists.length) :
    (lists.flatten.drop (offset lists i)).take lists[i].length = lists[i] := by
  induction lists generalizing i with
  | nil => simp at inside
  | cons list rest ih =>
    cases i with
    | zero => simp
    | succ i =>
      simp only [List.flatten_cons, offset_cons_succ, List.getElem_cons_succ]
      rw [← List.drop_drop, List.drop_left]
      exact ih (by simpa using inside)

theorem extract_flatten {lists : List (List α)} {i : Nat} (inside : i < lists.length) :
    (lists.flatten.toArray.extract (offset lists i) (offset lists (i + 1))).toList =
      lists[i] := by
  rw [Array.toList_extract, List.extract_eq_take_drop, offset_succ inside, Nat.add_sub_cancel_left]
  exact take_drop_flatten inside

theorem getElem?_flatten {lists : List (List α)} {i place : Nat} (inside : i < lists.length)
    (within : place < lists[i].length) :
    lists.flatten[offset lists i + place]? = some lists[i][place] := by
  have segment := congrArg (·[place]?) (take_drop_flatten inside)
  simpa [within, List.getElem?_take, List.getElem?_drop] using segment

section EqualLengths

variable {lists : Nat → List α} {count width : Nat}
  (equal : ∀ i, i < count → (lists i).length = width)

include equal

theorem offset_map_range {i : Nat} (inside : i ≤ count) :
    offset ((List.range count).map lists) i = i * width := by
  refine offset_of_width (fun list member => ?_) (by simpa using inside)
  obtain ⟨place, listed, rfl⟩ := List.mem_map.mp member
  exact equal place (List.mem_range.mp listed)

theorem length_flatMap_range : ((List.range count).flatMap lists).length = count * width := by
  have whole := offset_length ((List.range count).map lists)
  rw [List.length_map, List.length_range, offset_map_range equal (Nat.le_refl _)] at whole
  rw [List.flatMap_def, whole]

theorem getElem?_flatMap_range {i place : Nat} (inside : i < count) (within : place < width) :
    ((List.range count).flatMap lists)[i * width + place]? = (lists i)[place]? := by
  have length := equal i inside
  have bound : i < ((List.range count).map lists).length := by simpa using inside
  have held : place < ((List.range count).map lists)[i].length := by simpa [length] using within
  have found := getElem?_flatten bound held
  rw [offset_map_range equal (Nat.le_of_lt inside)] at found
  simpa [List.flatMap_def, length, within] using found

theorem extract_flatMap_range {i : Nat} (inside : i < count) :
    (((List.range count).flatMap lists).toArray.extract (i * width) ((i + 1) * width)).toList =
      lists i := by
  have bound : i < ((List.range count).map lists).length := by simpa using inside
  have part := extract_flatten bound
  rw [offset_map_range equal (Nat.le_of_lt inside), offset_map_range equal inside] at part
  simpa [List.flatMap_def] using part

end EqualLengths

/-- Neighbouring parts of an array, from its start on, make up a front of it. -/
theorem flatMap_extract (stored : Array α) {starts : Nat → Nat} (first : starts 0 = 0) {count : Nat}
    (ordered : ∀ i < count, starts i ≤ starts (i + 1)) :
    (List.range count).flatMap (fun i => (stored.extract (starts i) (starts (i + 1))).toList) =
      stored.toList.take (starts count) := by
  induction count with
  | zero => simp [first]
  | succ count ih =>
    have order := ordered count (by omega)
    rw [List.range_succ, List.flatMap_append, List.flatMap_singleton,
      ih fun i bound => ordered i (by omega), Array.toList_extract, List.extract_eq_take_drop,
      ← List.take_add, Nat.add_sub_cancel' order]

theorem flatten_cuts (stored : Array α) (width count : Nat) :
    ((List.range count).map fun i =>
      (stored.extract (i * width) ((i + 1) * width)).toList).flatten =
        stored.toList.take (count * width) := by
  rw [← List.flatMap_def]
  exact flatMap_extract stored (Nat.zero_mul width) fun i _ =>
    Nat.mul_le_mul_right _ (Nat.le_succ i)

/-- The places at which the lists start, and the one at which the last list ends. -/
def pointers (lists : List (List α)) : Array Nat :=
  ((List.range (lists.length + 1)).map (offset lists)).toArray

theorem size_pointers (lists : List (List α)) : (pointers lists).size = lists.length + 1 := by
  simp [pointers]

theorem getElem?_pointers {lists : List (List α)} {i : Nat} (inside : i ≤ lists.length) :
    (pointers lists)[i]? = some (offset lists i) := by
  simp [pointers, List.getElem?_range (show i < lists.length + 1 by omega)]

theorem pointers_push (lists : List (List α)) (list : List α) :
    (pointers lists).push ((pointers lists).back?.getD 0 + list.length) =
      pointers (lists ++ [list]) := by
  have last : (pointers lists).back?.getD 0 = offset lists lists.length := by
    simp [pointers, List.range_succ]
  have next : offset (lists ++ [list]) (lists.length + 1) =
      offset lists lists.length + list.length := by
    rw [offset_succ (by simp), offset_append_left _ _ (Nat.le_refl _)]
    simp
  have kept : (List.range (lists.length + 1)).map (offset (lists ++ [list])) =
      (List.range (lists.length + 1)).map (offset lists) := by
    apply List.map_congr_left
    intro i member
    have bound := List.mem_range.mp member
    exact offset_append_left _ _ (by omega)
  rw [last, pointers, pointers, List.length_append, List.length_singleton,
    List.range_succ (n := _ + 1),
    List.map_append, kept, List.map_singleton, next]
  simp

/-- Pushing the end of each list behind the last end gives the pointers. -/
theorem foldl_pointers (done lists : List (List α)) :
    lists.foldl (fun (ends : Array Nat) list => ends.push (ends.back?.getD 0 + list.length))
      (pointers done) = pointers (done ++ lists) := by
  induction lists generalizing done with
  | nil => simp
  | cons list rest ih =>
    rw [List.foldl_cons, pointers_push, ih, List.append_assoc, List.singleton_append]

end Segments

end PackedMatrix
