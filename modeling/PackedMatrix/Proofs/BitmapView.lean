import Mathlib.Data.List.Perm.Subperm
import PackedMatrix.Bitmap
import PackedMatrix.Fault
import PackedMatrix.Proofs.Increasing
import PackedMatrix.Proofs.SeenRows
import PackedMatrix.Proofs.Segments
import PackedMatrix.Proofs.Steps

namespace PackedMatrix

/-- Increasing lists of rows below a bound, no two of which share a row. -/
structure DisjointLists (lists : List (List Nat)) (rows : Nat) : Prop where
  increasing : ∀ list ∈ lists, list.Pairwise (· < ·)
  inside : ∀ list ∈ lists, ∀ row ∈ list, row < rows
  distinct : lists.flatten.Nodup

namespace DisjointLists

variable {lists : List (List Nat)} {rows : Nat}

theorem lt_of_mem {i row : Nat} (member : row ∈ lists.getD i []) : i < lists.length := by
  by_contra outside
  simp [List.getD_eq_getElem?_getD, List.getElem?_eq_none (Nat.le_of_not_lt outside)] at member

theorem getD_mem {i : Nat} (bound : i < lists.length) : lists.getD i [] ∈ lists := by
  rw [List.getD_eq_getElem?_getD, List.getElem?_eq_getElem bound]
  exact List.getElem_mem bound

theorem mem_flatten_iff {row : Nat} : row ∈ lists.flatten ↔ ∃ i, row ∈ lists.getD i [] := by
  constructor
  · intro member
    obtain ⟨list, listed, inside⟩ := List.mem_flatten.mp member
    obtain ⟨i, bound, rfl⟩ := List.mem_iff_getElem.mp listed
    refine ⟨i, ?_⟩
    rwa [List.getD_eq_getElem?_getD, List.getElem?_eq_getElem bound]
  · rintro ⟨i, member⟩
    exact List.mem_flatten.mpr ⟨_, getD_mem (lt_of_mem member), member⟩

variable (disjoint : DisjointLists lists rows)

include disjoint

theorem row_lt {i row : Nat} (member : row ∈ lists.getD i []) : row < rows :=
  disjoint.inside _ (getD_mem (lt_of_mem member)) row member

theorem increasing_getD (i : Nat) : (lists.getD i []).Pairwise (· < ·) := by
  by_cases bound : i < lists.length
  · exact disjoint.increasing _ (getD_mem bound)
  · simp [List.getD_eq_getElem?_getD, List.getElem?_eq_none (Nat.le_of_not_lt bound)]

theorem unique {i j row : Nat} (first : row ∈ lists.getD i []) (second : row ∈ lists.getD j []) :
    i = j := by
  have apart := (List.nodup_flatten.mp disjoint.distinct).2
  have boundI := lt_of_mem first
  have boundJ := lt_of_mem second
  rw [List.getD_eq_getElem?_getD, List.getElem?_eq_getElem boundI] at first
  rw [List.getD_eq_getElem?_getD, List.getElem?_eq_getElem boundJ] at second
  rcases Nat.lt_trichotomy i j with less | same | more
  · exact absurd second (List.disjoint_left.mp
      (List.pairwise_iff_getElem.mp apart i j boundI boundJ less) first)
  · exact same
  · exact absurd first (List.disjoint_left.mp
      (List.pairwise_iff_getElem.mp apart j i boundJ boundI more) second)

theorem mem_range {row : Nat} (member : row ∈ lists.flatten) : row ∈ List.range rows := by
  obtain ⟨i, listed⟩ := mem_flatten_iff.mp member
  exact List.mem_range.mpr (disjoint.row_lt listed)

theorem total_le : total (lists.map List.length) ≤ rows := by
  have short := (List.subperm_of_subset disjoint.distinct fun _ => disjoint.mem_range).length_le
  rwa [List.length_range, Segments.length_flatten] at short

/-- The lists name as many rows as there are exactly if they name all of them. -/
theorem total_eq_iff :
    total (lists.map List.length) = rows ↔ ∀ row, row < rows → row ∈ lists.flatten := by
  have most := disjoint.total_le
  rw [← Segments.length_flatten] at most ⊢
  constructor
  · intro full row bound
    have perm := (List.subperm_of_subset disjoint.distinct fun _ =>
      disjoint.mem_range).perm_of_length_le (by
        rw [List.length_range]
        exact Nat.le_of_eq full.symm)
    exact perm.mem_iff.mpr (List.mem_range.mpr bound)
  · intro all
    have long := (List.subperm_of_subset List.nodup_range
      fun row member => all row (List.mem_range.mp member)).length_le
    rw [List.length_range] at long
    omega

end DisjointLists

namespace Bitmap

/-- One tuple for each list; lists are nonempty, increasing and inside, and share no row. -/
structure WellFormed (bitmap : Bitmap) (columns rows : Nat) : Prop where
  width : bitmap.width = columns
  values : bitmap.values.size = bitmap.tuples * bitmap.width
  nonempty : ∀ list ∈ bitmap.lists, list ≠ []
  increasing : ∀ list ∈ bitmap.lists, list.Pairwise (· < ·)
  inside : ∀ list ∈ bitmap.lists, ∀ row ∈ list, row < rows
  distinct : bitmap.lists.flatten.Nodup

/-- Listed rows hold the tuple of their list, and all other rows hold zeros. -/
structure Shows (bitmap : Bitmap) (rows : Nat) (tupleOf : Nat → List Cell) : Prop where
  listed : ∀ i row, row ∈ bitmap.list i → bitmap.tuple i = tupleOf row
  zero : ∀ row, row < rows → row ∉ bitmap.lists.flatten → isZeroTuple (tupleOf row) = true

theorem WellFormed.wide {bitmap : Bitmap} {columns : List Nat} {rows : Nat}
    (valid : bitmap.WellFormed columns.length rows) (nonempty : columns ≠ []) :
    bitmap.width ≠ 0 := by
  rw [valid.width]
  exact Nat.ne_of_gt (List.length_pos_iff.mpr nonempty)

theorem list_eq_getElem {bitmap : Bitmap} {i : Nat} (inside : i < bitmap.lists.length) :
    bitmap.list i = bitmap.lists[i] := by
  simp [list, List.getD_eq_getElem?_getD, inside]

theorem lt_tuples_of_mem_list {bitmap : Bitmap} {i row : Nat} (member : row ∈ bitmap.list i) :
    i < bitmap.tuples :=
  DisjointLists.lt_of_mem member

theorem mem_flatten_iff {bitmap : Bitmap} {row : Nat} :
    row ∈ bitmap.lists.flatten ↔ ∃ i, row ∈ bitmap.list i :=
  DisjointLists.mem_flatten_iff

theorem offsets_eq (bitmap : Bitmap) : bitmap.offsets = bitmap.lists.flatten.length := by
  rw [Segments.length_flatten, offsets]

namespace WellFormed

variable {bitmap : Bitmap} {columns rows : Nat}

theorem disjoint (valid : bitmap.WellFormed columns rows) : DisjointLists bitmap.lists rows :=
  ⟨valid.increasing, valid.inside, valid.distinct⟩

theorem list_mem (_ : bitmap.WellFormed columns rows) {i : Nat} (bound : i < bitmap.tuples) :
    bitmap.list i ∈ bitmap.lists :=
  DisjointLists.getD_mem bound

theorem row_lt (valid : bitmap.WellFormed columns rows) {i row : Nat}
    (member : row ∈ bitmap.list i) : row < rows :=
  valid.disjoint.row_lt member

theorem increasing_list (valid : bitmap.WellFormed columns rows) (i : Nat) :
    (bitmap.list i).Pairwise (· < ·) :=
  valid.disjoint.increasing_getD i

theorem list_unique (valid : bitmap.WellFormed columns rows) {i j row : Nat}
    (first : row ∈ bitmap.list i) (second : row ∈ bitmap.list j) : i = j :=
  valid.disjoint.unique first second

theorem offsets_le (valid : bitmap.WellFormed columns rows) : bitmap.offsets ≤ rows :=
  valid.disjoint.total_le

/-- Every list names a row, so there are no more lists than rows. -/
theorem tuples_le_offsets (valid : bitmap.WellFormed columns rows) :
    bitmap.tuples ≤ bitmap.offsets := by
  rw [tuples, offsets]
  have nonempty := valid.nonempty
  generalize bitmap.lists = lists at nonempty
  induction lists with
  | nil => simp
  | cons list rest ih =>
    have first := List.length_pos_iff.mpr (nonempty list (by simp))
    have others := ih fun other member => nonempty other (List.mem_cons_of_mem _ member)
    simp only [List.length_cons, List.map_cons, total_cons]
    omega

theorem tuples_lt_size (valid : bitmap.WellFormed columns rows) (short : rows ≤ maxIndex) :
    bitmap.tuples < UInt32.size := by
  have := valid.tuples_le_offsets
  have := valid.offsets_le
  rw [maxIndex] at short
  rw [UInt32.size]
  omega

theorem length_tuple (valid : bitmap.WellFormed columns rows) {i : Nat}
    (bound : i < bitmap.tuples) :
    (bitmap.tuple i).length = columns := by
  have upTo : (i + 1) * bitmap.width ≤ bitmap.values.size := by
    rw [valid.values]
    exact Nat.mul_le_mul_right _ bound
  have width := valid.width
  rw [Nat.succ_mul] at upTo
  simp only [tuple, Array.length_toList, Array.size_extract, Nat.succ_mul]
  omega

theorem zeros_eq_zero_iff (valid : bitmap.WellFormed columns rows) :
    bitmap.zeros rows = 0 ↔ ∀ row, row < rows → row ∈ bitmap.lists.flatten := by
  have most := valid.offsets_le
  rw [← valid.disjoint.total_eq_iff, zeros, offsets]
  rw [offsets] at most
  omega

/-- A bitmap with one list leaves no row to the zero tuple exactly when that list has all rows. -/
theorem zeros_eq_zero_iff_of_single (valid : bitmap.WellFormed columns rows)
    (single : bitmap.tuples = 1) : bitmap.zeros rows = 0 ↔ (bitmap.list 0).length = rows := by
  obtain ⟨list, only⟩ := List.length_eq_one_iff.mp single
  have most := valid.offsets_le
  have here : bitmap.list 0 = list := by rw [Bitmap.list, only]; rfl
  rw [offsets_eq, only, List.flatten_singleton] at most
  rw [zeros, offsets_eq, only, List.flatten_singleton, here]
  omega

theorem single_full_iff (valid : bitmap.WellFormed columns rows) :
    (bitmap.tuples = 1 ∧ (bitmap.list 0).length = rows) ↔
      ∃ list, bitmap.lists = [list] ∧ ∀ row, row < rows → row ∈ list := by
  constructor
  · intro ⟨single, full⟩
    obtain ⟨list, only⟩ := List.length_eq_one_iff.mp single
    have none := (valid.zeros_eq_zero_iff_of_single single).mpr full
    have all := valid.zeros_eq_zero_iff.mp none
    rw [only, List.flatten_singleton] at all
    exact ⟨list, only, all⟩
  · intro ⟨list, only, all⟩
    have single : bitmap.tuples = 1 := List.length_eq_one_iff.mpr ⟨list, only⟩
    refine ⟨single, (valid.zeros_eq_zero_iff_of_single single).mp ?_⟩
    rw [valid.zeros_eq_zero_iff, only, List.flatten_singleton]
    exact all

end WellFormed

/-- Rows of a list that lie inside, increase from behind `last`, and were not seen before. -/
structure Passes {rows : Nat} (last : Option Nat) (list : List Nat) (seen : SeenRows rows) :
    Prop where
  inside : ∀ row ∈ list, row < rows
  increasing : list.Pairwise (· < ·)
  behind : ∀ known ∈ last, ∀ row ∈ list, known < row
  fresh : ∀ row ∈ list, row ∉ seen

section Lists

variable {rows index : Nat} {last : Option Nat} {list : List Nat} {seen after : SeenRows rows}

theorem passes_nil (last : Option Nat) (seen : SeenRows rows) : Passes last [] seen :=
  ⟨by simp, .nil, by simp, by simp⟩

theorem passes_cons_iff {row : Nat} {rest : List Nat} (bound : row < rows) :
    Passes last (row :: rest) seen ↔
      (∀ known ∈ last, known < row) ∧ row ∉ seen ∧
        Passes (some row) rest (seen.add ⟨row, bound⟩) := by
  constructor
  · intro passes
    obtain ⟨least, order⟩ := List.pairwise_cons.mp passes.increasing
    refine ⟨fun known here => passes.behind known here row (by simp),
      passes.fresh row (by simp), ?_, order, ?_, ?_⟩
    · exact fun other member => passes.inside other (List.mem_cons_of_mem _ member)
    · intro known here other member
      cases here
      exact least other member
    · intro other member
      have less := least other member
      have differs : row ≠ other := by omega
      have old := passes.fresh other (List.mem_cons_of_mem _ member)
      rw [SeenRows.mem_add_iff, not_or]
      exact ⟨differs.symm, old⟩
  · intro ⟨behind, absent, passes⟩
    have least : ∀ other ∈ rest, row < other := passes.behind row rfl
    refine ⟨?_, List.pairwise_cons.mpr ⟨least, passes.increasing⟩, ?_, ?_⟩
    · exact List.forall_mem_cons.mpr ⟨bound, passes.inside⟩
    · intro known here
      have first := behind known here
      refine List.forall_mem_cons.mpr ⟨first, fun other member => ?_⟩
      exact Nat.lt_trans first (least other member)
    · refine List.forall_mem_cons.mpr ⟨absent, fun other member known => ?_⟩
      exact passes.fresh other member ((SeenRows.mem_add_iff bound).mpr (Or.inr known))

theorem any_ge_eq_false_iff {last : Option Nat} {row : Nat} :
    last.any (· ≥ row) = false ↔ ∀ known ∈ last, known < row := by
  cases last with
  | none => simp
  | some known => simp

theorem exists_checkList_iff :
    (∃ after, checkList index last list seen = .ok after) ↔ Passes last list seen := by
  induction list generalizing last seen with
  | nil => exact iff_of_true ⟨seen, rfl⟩ (passes_nil last seen)
  | cons row rest ih =>
    rw [checkList]
    by_cases outside : row ≥ rows
    · rw [dif_pos outside]
      refine iff_of_false (by simp) fun passes => ?_
      exact absurd (passes.inside row (by simp)) (Nat.not_lt.mpr outside)
    · have bound := Nat.lt_of_not_le outside
      rw [dif_neg outside, passes_cons_iff bound, ← any_ge_eq_false_iff, ← ih,
        SeenRows.mem_iff_has bound]
      cases order : last.any (· ≥ row) with
      | true => simp
      | false => cases shared : seen.has ⟨row, bound⟩ <;> simp [shared]

theorem mem_of_checkList (h : checkList index last list seen = .ok after) (row : Nat) :
    row ∈ after ↔ row ∈ list ∨ row ∈ seen := by
  induction list generalizing last seen with
  | nil =>
    cases h
    simp
  | cons first rest ih =>
    rw [checkList] at h
    split at h
    next => cases h
    next inside =>
      simp only [guard_eq_ok_iff] at h
      obtain ⟨_, _, h⟩ := h
      rw [ih h, SeenRows.mem_add_iff, List.mem_cons, or_left_comm, or_assoc]

theorem checkLists_cons_eq_ok_iff {rest : List (List Nat)} :
    checkLists index (list :: rest) seen = .ok () ↔
      list ≠ [] ∧ ∃ after, checkList index none list seen = .ok after ∧
        checkLists (index + 1) rest after = .ok () := by
  rw [checkLists]
  cases list with
  | nil => simp
  | cons row others =>
    cases checkList index none (row :: others) seen with
    | error cause => simp
    | ok after => simp

/-- Lists are accepted exactly if none is empty, all increase inside, and no row is seen twice. -/
theorem checkLists_eq_ok_iff {lists : List (List Nat)} :
    checkLists index lists seen = .ok () ↔
      (∀ list ∈ lists, list ≠ [] ∧ (∀ row ∈ list, row < rows) ∧ list.Pairwise (· < ·)) ∧
        lists.flatten.Nodup ∧ ∀ row ∈ lists.flatten, row ∉ seen := by
  induction lists generalizing index seen with
  | nil => exact iff_of_true rfl ⟨by simp, .nil, by simp⟩
  | cons list rest ih =>
    rw [checkLists_cons_eq_ok_iff, List.forall_mem_cons, List.flatten_cons, List.nodup_append,
      List.forall_mem_append]
    constructor
    · intro ⟨filled, after, checked, others⟩
      have passes := exists_checkList_iff.mp ⟨after, checked⟩
      have members := mem_of_checkList checked
      obtain ⟨shapes, distinct, fresh⟩ := ih.mp others
      refine ⟨⟨⟨filled, passes.inside, passes.increasing⟩, shapes⟩,
        ⟨Increasing.nodup passes.increasing, distinct, ?_⟩, passes.fresh, ?_⟩
      · rintro row here _ member rfl
        exact fresh row member ((members row).mpr (Or.inl here))
      · exact fun row member known => fresh row member ((members row).mpr (Or.inr known))
    · intro ⟨⟨⟨filled, inside, increasing⟩, shapes⟩, ⟨_, distinct, apart⟩, fresh, later⟩
      have passes : Passes none list seen := ⟨inside, increasing, by simp, fresh⟩
      obtain ⟨after, checked⟩ := exists_checkList_iff.mpr passes
      refine ⟨filled, after, checked, ih.mpr ⟨shapes, distinct, ?_⟩⟩
      intro row member
      rw [mem_of_checkList checked row, not_or]
      exact ⟨fun here => apart row here row member rfl, later row member⟩

end Lists

/-- A bitmap without lists is accepted if it has the width, and another one exactly if it is well
formed. -/
theorem check_eq_ok_iff {bitmap : Bitmap} {columns rows : Nat} :
    bitmap.check columns rows = .ok () ↔
      bitmap.width = columns ∧ (bitmap.lists ≠ [] → bitmap.WellFormed columns rows) := by
  unfold check
  by_cases width : bitmap.width = columns
  · rw [if_neg (fun differs => differs width)]
    by_cases empty : bitmap.lists = []
    · rw [if_pos (List.isEmpty_iff.mpr empty)]
      exact iff_of_true rfl ⟨width, fun filled => absurd empty filled⟩
    · rw [if_neg (fun none => empty (List.isEmpty_iff.mp none))]
      constructor
      · intro h
        simp only [guard_eq_ok_iff] at h
        obtain ⟨values, _, h⟩ := h
        obtain ⟨shapes, distinct, _⟩ := checkLists_eq_ok_iff.mp h
        exact ⟨width, fun _ => ⟨width, Decidable.not_not.mp values,
          fun list member => (shapes list member).1,
          fun list member => (shapes list member).2.2,
          fun list member => (shapes list member).2.1, distinct⟩⟩
      · intro ⟨_, whole⟩
        have valid := whole empty
        have most := valid.offsets_le
        rw [if_neg (fun differs => differs valid.values), if_neg (Nat.not_lt.mpr most)]
        refine checkLists_eq_ok_iff.mpr ⟨fun list member => ?_, valid.distinct,
          fun row _ => SeenRows.not_mem_start row⟩
        exact ⟨valid.nonempty list member, valid.inside list member, valid.increasing list member⟩
  · rw [if_pos width]
    exact iff_of_false (fun failed => nomatch failed) fun h => width h.1

/-- Every well-formed bitmap is accepted, and every accepted one with a list is well formed. -/
theorem validate_eq_ok_iff {bitmap : Bitmap} {columns : List Nat} {rows : Nat} :
    bitmap.validate columns rows = .ok () ↔ bitmap.width = columns.length ∧
      (bitmap.lists ≠ [] → bitmap.WellFormed columns.length rows) := by
  rw [← check_eq_ok_iff, validate]
  cases bitmap.check columns.length rows with
  | error cause => exact iff_of_false (fun failed => nomatch failed) (fun failed => nomatch failed)
  | ok _ => exact iff_of_true rfl rfl

theorem WellFormed.validate {bitmap : Bitmap} {columns : List Nat} {rows : Nat}
    (valid : bitmap.WellFormed columns.length rows) : bitmap.validate columns rows = .ok () :=
  validate_eq_ok_iff.mpr ⟨valid.width, fun _ => valid⟩

/-- An accepted bitmap has the lists of a well-formed one; without lists, its values may be too many
or too few. -/
theorem exists_wellFormed {bitmap : Bitmap} {columns : List Nat} {rows : Nat}
    (accepted : bitmap.validate columns rows = .ok ()) :
    ∃ other : Bitmap, other.WellFormed columns.length rows ∧ other.lists = bitmap.lists := by
  obtain ⟨_, whole⟩ := validate_eq_ok_iff.mp accepted
  by_cases none_ : bitmap.lists = []
  · have blank : (empty columns.length).WellFormed columns.length rows := by
      constructor <;> simp [empty, tuples]
    exact ⟨empty columns.length, blank, none_.symm⟩
  · exact ⟨bitmap, whole none_, rfl⟩

end Bitmap

end PackedMatrix
