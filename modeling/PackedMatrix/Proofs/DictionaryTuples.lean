import Mathlib.Data.List.GetD
import PackedMatrix.Dictionary
import PackedMatrix.Proofs.BitmapView

namespace PackedMatrix

namespace Segments

variable {α : Type}

/-- A list starts behind all lists before it. -/
theorem flatten_split (lists : List (List α)) (i : Nat) :
    lists.flatten = (lists.take i).flatten ++ (lists.drop i).flatten ∧
      offset lists i = (lists.take i).flatten.length := by
  rw [← List.flatten_append, List.take_append_drop, length_flatten]
  exact ⟨rfl, rfl⟩

theorem take_flatten (lists : List (List α)) (i : Nat) :
    lists.flatten.take (offset lists i) = (lists.take i).flatten := by
  obtain ⟨split, place⟩ := flatten_split lists i
  rw [split, place, List.take_left]

theorem drop_flatten (lists : List (List α)) (i : Nat) :
    lists.flatten.drop (offset lists i) = (lists.drop i).flatten := by
  obtain ⟨split, place⟩ := flatten_split lists i
  rw [split, place, List.drop_left]

end Segments

namespace Dictionary

theorem count_eq {dictionary : Dictionary} (wide : dictionary.width ≠ 0) :
    dictionary.count = .ok dictionary.tuples := if_neg wide

theorem count_eq_of_pos {dictionary : Dictionary} (filled : 0 < dictionary.tuples) :
    dictionary.count = .ok dictionary.tuples := by
  refine count_eq fun none_ => ?_
  rw [tuples, none_, Nat.div_zero] at filled
  cases filled

/-- The values are these tuples, one behind the other, all of the same width. -/
structure Holds (dictionary : Dictionary) (width : Nat) (tuples : List (List Cell)) : Prop where
  wide : dictionary.width = width
  values : dictionary.values = tuples.flatten.toArray
  lengths : ∀ tuple ∈ tuples, tuple.length = width

namespace Holds

variable {dictionary : Dictionary} {width : Nat} {tuples : List (List Cell)}

theorem size_values (holds : dictionary.Holds width tuples) :
    dictionary.values.size = tuples.length * width := by
  rw [holds.values, List.size_toArray, ← Segments.offset_length,
    Segments.offset_of_width holds.lengths (Nat.le_refl _)]

theorem tuples_eq (holds : dictionary.Holds width tuples) (positive : 0 < width) :
    dictionary.tuples = tuples.length := by
  rw [Dictionary.tuples, holds.size_values, holds.wide, Nat.mul_div_cancel _ positive]

theorem count_eq (holds : dictionary.Holds width tuples) (positive : 0 < width) :
    dictionary.count = .ok tuples.length := by
  rw [Dictionary.count_eq (by rw [holds.wide]; omega), holds.tuples_eq positive]

theorem size_eq (holds : dictionary.Holds width tuples) (positive : 0 < width) :
    dictionary.size = estimateSize tuples.length width := by
  rw [size, holds.tuples_eq positive, holds.wide]

theorem toList_extract_front (holds : dictionary.Holds width tuples) {i : Nat}
    (inside : i ≤ tuples.length) :
    (dictionary.values.extract 0 (i * width)).toList = (tuples.take i).flatten := by
  rw [holds.values, ← Segments.offset_of_width holds.lengths inside, Array.toList_extract,
    List.extract_eq_take_drop, List.drop_zero, Nat.sub_zero, Segments.take_flatten]

theorem toList_extract_back (holds : dictionary.Holds width tuples) {i : Nat}
    (inside : i ≤ tuples.length) :
    (dictionary.values.extract (i * width) dictionary.values.size).toList =
      (tuples.drop i).flatten := by
  rw [holds.values, ← Segments.offset_of_width holds.lengths inside, Array.toList_extract,
    List.extract_eq_take_drop, Segments.drop_flatten, List.take_of_length_le]
  apply Nat.le_of_eq
  rw [← Segments.drop_flatten, List.length_drop, List.size_toArray]

theorem toList_extract_tuple (holds : dictionary.Holds width tuples) {i : Nat}
    (inside : i < tuples.length) :
    (dictionary.values.extract (i * width) ((i + 1) * width)).toList = tuples[i] := by
  rw [holds.values, ← Segments.offset_of_width holds.lengths (Nat.le_of_lt inside),
    ← Segments.offset_of_width holds.lengths inside, Segments.extract_flatten inside]

theorem tuple?_eq (holds : dictionary.Holds width tuples) {i : Nat} (inside : i < tuples.length) :
    dictionary.tuple? i = some tuples[i] := by
  have upTo : (i + 1) * dictionary.width ≤ dictionary.values.size := by
    rw [holds.size_values, holds.wide]
    exact Nat.mul_le_mul_right _ inside
  rw [tuple?, if_pos upTo, tuple, holds.wide, holds.toList_extract_tuple inside]

theorem tuple?_of_getElem? (holds : dictionary.Holds width tuples) {i : Nat} {tuple : List Cell}
    (here : tuples[i]? = some tuple) : dictionary.tuple? i = some tuple := by
  obtain ⟨inside, rfl⟩ := List.getElem?_eq_some_iff.mp here
  exact holds.tuple?_eq inside

theorem value?_getElem (holds : dictionary.Holds width tuples) {i place : Nat}
    (inside : i < tuples.length) (within : place < tuples[i].length) :
    dictionary.value? i place = some tuples[i][place] := by
  have part := Segments.take_drop_flatten inside
  rw [Segments.offset_of_width holds.lengths (Nat.le_of_lt inside)] at part
  have cell : ((tuples.flatten.drop (i * width)).take tuples[i].length)[place]? =
      some tuples[i][place] := by
    rw [part, List.getElem?_eq_getElem within]
  rw [List.getElem?_take_of_lt within, List.getElem?_drop] at cell
  rw [value?, holds.values, holds.wide, List.getElem?_toArray, cell]

theorem withZeroTuple (holds : dictionary.Holds width tuples) :
    dictionary.withZeroTuple.Holds width (tuples ++ [List.replicate width Cell.zero]) := by
  refine ⟨holds.wide, ?_, ?_⟩
  · simp [Dictionary.withZeroTuple, zeroTuple, holds.values, holds.wide]
  · intro tuple member
    rcases List.mem_append.mp member with old | new
    · exact holds.lengths tuple old
    · rw [List.mem_singleton.mp new, List.length_replicate]

end Holds

/-- The tuples of a bitmap in their order. -/
def tuplesOf (bitmap : Bitmap) : List (List Cell) := (List.range bitmap.tuples).map bitmap.tuple

theorem length_tuplesOf (bitmap : Bitmap) : (tuplesOf bitmap).length = bitmap.tuples := by
  simp [tuplesOf]

theorem getElem_tuplesOf {bitmap : Bitmap} {i : Nat} (inside : i < (tuplesOf bitmap).length) :
    (tuplesOf bitmap)[i] = bitmap.tuple i := by
  simp [tuplesOf]

theorem holds_ofBitmap {bitmap : Bitmap} {columns rows : Nat}
    (valid : bitmap.WellFormed columns rows) :
    (ofBitmap bitmap).Holds columns (tuplesOf bitmap) := by
  refine ⟨valid.width, ?_, ?_⟩
  · have all := Segments.flatten_cuts bitmap.values bitmap.width bitmap.tuples
    rw [List.take_of_length_le (by rw [Array.length_toList]; exact Nat.le_of_eq valid.values)]
      at all
    exact congrArg List.toArray all.symm
  · intro tuple member
    obtain ⟨i, listed, rfl⟩ := List.mem_map.mp member
    exact valid.length_tuple (List.mem_range.mp listed)

/-- The tuples with one of them moved to the end, behind the zero tuple if some rows are zero. -/
def movedTuples (tuples : List (List Cell)) (width frequent zeros : Nat) : List (List Cell) :=
  tuples.eraseIdx frequent ++ (if zeros > 0 then [List.replicate width Cell.zero] else []) ++
    [tuples.getD frequent []]

theorem length_movedTuples {tuples : List (List Cell)} {width frequent zeros : Nat}
    (inside : frequent < tuples.length) : (movedTuples tuples width frequent zeros).length =
      tuples.length + if zeros > 0 then 1 else 0 := by
  simp only [movedTuples, List.length_append, List.length_eraseIdx_of_lt inside,
    List.length_singleton]
  split <;> simp only [List.length_singleton, List.length_nil] <;> omega

theorem length_of_mem_movedTuples {tuples : List (List Cell)} {width frequent zeros : Nat}
    (lengths : ∀ tuple ∈ tuples, tuple.length = width) (inside : frequent < tuples.length) :
    ∀ tuple ∈ movedTuples tuples width frequent zeros, tuple.length = width := by
  intro tuple member
  simp only [movedTuples, List.mem_append, List.getD_eq_getElem _ _ inside, List.mem_singleton]
    at member
  rcases member with (old | zero) | last
  · exact lengths tuple (List.mem_of_mem_eraseIdx old)
  · split at zero
    next => rw [List.mem_singleton.mp zero, List.length_replicate]
    next => simp at zero
  · rw [last]
    exact lengths _ (List.getElem_mem inside)

/-- Where the other tuples are once one was moved. -/
theorem getElem?_movedTuples_shift {tuples : List (List Cell)} {width frequent zeros i : Nat}
    (inside : frequent < tuples.length) (bound : i < tuples.length) (other : i ≠ frequent) :
    (movedTuples tuples width frequent zeros)[if i > frequent then i - 1 else i]? =
      tuples[i]? := by
  have within : (if i > frequent then i - 1 else i) < (tuples.eraseIdx frequent).length := by
    rw [List.length_eraseIdx_of_lt inside]
    split <;> omega
  rw [movedTuples, List.append_assoc, List.getElem?_append_left within, List.getElem?_eraseIdx]
  split
  next behind =>
    rw [if_neg (by omega)]
    congr 1
    omega
  next before => rw [if_pos (by omega)]

/-- The zero tuple lies behind the other tuples. -/
theorem getElem?_movedTuples_zero {tuples : List (List Cell)} (width : Nat)
    {frequent zeros : Nat}
    (inside : frequent < tuples.length) (some_ : zeros > 0) :
    (movedTuples tuples width frequent zeros)[tuples.length - 1]? =
      some (List.replicate width Cell.zero) := by
  have behind : (tuples.eraseIdx frequent).length = tuples.length - 1 :=
    List.length_eraseIdx_of_lt inside
  rw [movedTuples, if_pos some_, List.append_assoc, ← behind, List.getElem?_append_right
    (Nat.le_refl _), Nat.sub_self]
  rfl

theorem getElem?_movedTuples_last {tuples : List (List Cell)} {width frequent zeros : Nat}
    (inside : frequent < tuples.length) :
    (movedTuples tuples width frequent zeros)[
        (movedTuples tuples width frequent zeros).length - 1]? =
      tuples[frequent]? := by
  rw [← List.getLast?_eq_getElem?, movedTuples, List.getLast?_append, List.getLast?_singleton,
    Option.some_or, List.getD_eq_getElem?_getD, List.getElem?_eq_getElem inside, Option.getD_some]

/-- The two ways of ending with the default tuple, for a tuple that `listed` rows hold: the zero
tuple is put behind all others, or the frequent tuple is, with the zero tuple in front of it if some
rows are zero. -/
inductive Arranged (tuples : List (List Cell)) (width frequent zeros listed : Nat)
    (moved : MovedDictionary) : Prop
  | zeroLast (fewer : listed < zeros)
      (holds : moved.dictionary.Holds width (tuples ++ [List.replicate width Cell.zero]))
      (kept : moved.moved = none) (zero : moved.zeroCode = some tuples.length)
  | frequentLast (most : zeros ≤ listed)
      (holds : moved.dictionary.Holds width (movedTuples tuples width frequent zeros))
      (place : moved.moved = some frequent)
      (zero : moved.zeroCode = if zeros > 0 then some (tuples.length - 1) else none)

section Move

variable {dictionary : Dictionary} {width : Nat} {tuples : List (List Cell)}
  (holds : dictionary.Holds width tuples) (positive : 0 < width) {bitmap : Bitmap}
  {rows frequent : Nat} {moved : MovedDictionary}

include holds positive

/-- A move that succeeds ends in one of the two ways. -/
theorem arranged_of_moveFrequentToLast
    (h : dictionary.moveFrequentToLast bitmap rows frequent = .ok moved) :
    frequent < tuples.length ∧
      Arranged tuples width frequent (bitmap.zeros rows) (bitmap.list frequent).length moved := by
  simp only [moveFrequentToLast, holds.count_eq positive, holds.wide, mapError_ok, bind,
    Except.bind, guard_eq_ok_iff] at h
  obtain ⟨inside, h⟩ := h
  have inside : frequent < tuples.length := Nat.lt_of_not_le inside
  refine ⟨inside, ?_⟩
  split at h
  next fewer =>
    cases h
    exact .zeroLast fewer holds.withZeroTuple rfl rfl
  next most =>
    cases h
    refine .frequentLast (Nat.le_of_not_lt most)
      ⟨rfl, ?_, length_of_mem_movedTuples holds.lengths inside⟩ rfl rfl
    apply Array.toList_inj.mp
    simp only [movedTuples, Array.toList_append, holds.toList_extract_front (Nat.le_of_lt inside),
      holds.toList_extract_back inside, holds.toList_extract_tuple inside,
      List.getD_eq_getElem _ _ inside, List.eraseIdx_eq_take_drop_succ, List.flatten_append,
      List.flatten_singleton, List.append_assoc]
    split <;> simp [zeroTuple]

/-- A tuple that more rows hold than the zero tuple is moved to the end. -/
theorem holds_moveFrequentToLast (most : bitmap.zeros rows ≤ (bitmap.list frequent).length)
    (h : dictionary.moveFrequentToLast bitmap rows frequent = .ok moved) :
    frequent < tuples.length ∧
      moved.dictionary.Holds width (movedTuples tuples width frequent (bitmap.zeros rows)) := by
  obtain ⟨inside, arranged⟩ := arranged_of_moveFrequentToLast holds positive h
  cases arranged with
  | zeroLast fewer moves kept zero => omega
  | frequentLast most moves place zero => exact ⟨inside, moves⟩

end Move

end Dictionary

end PackedMatrix
