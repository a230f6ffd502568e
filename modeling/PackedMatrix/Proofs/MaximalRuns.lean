import Mathlib.Algebra.Order.Floor.Div
import PackedMatrix.Proofs.RunReads

namespace PackedMatrix

namespace Run

/-- The maximal runs of some rows: they cover the rows in order, none is empty, and between two of
them at least one row is left out. -/
structure Maximal (runs : List Run) (rows : List Nat) : Prop where
  rows : runs.flatMap Run.rows = rows
  nonempty : ∀ run ∈ runs, 0 < run.length
  apart : runs.Pairwise fun earlier later => earlier.stop < later.start

theorem rows_eq_cons {run : Run} (positive : 0 < run.length) :
    run.rows = run.start :: List.range' (run.start + 1) (run.length - 1) := by
  obtain ⟨start, length⟩ := run
  cases length with
  | zero => exact absurd positive (Nat.lt_irrefl 0)
  | succ length => rw [rows, List.range'_succ, Nat.add_sub_cancel]

/-- The first of maximal runs is a front of the rows, and the row behind it is none of them. -/
theorem Maximal.cons {run : Run} {rest : List Run} {rows : List Nat}
    (maximal : Maximal (run :: rest) rows) :
    ∃ behind, rows = run.rows ++ behind ∧ Maximal rest behind ∧ 0 < run.length ∧
      ∀ row ∈ behind, run.stop < row := by
  obtain ⟨first, apart⟩ := List.pairwise_cons.mp maximal.apart
  refine ⟨rest.flatMap Run.rows, ?_, ⟨rfl, ?_, apart⟩, maximal.nonempty run (by simp), ?_⟩
  · rw [← maximal.rows, List.flatMap_cons]
  · exact fun other member => maximal.nonempty other (List.mem_cons_of_mem _ member)
  · intro row member
    obtain ⟨other, listed, inside⟩ := List.mem_flatMap.mp member
    exact Nat.lt_of_lt_of_le (first other listed) (mem_rows.mp inside).1

theorem Maximal.stop_not_mem {run : Run} {rest : List Run} {rows : List Nat}
    (maximal : Maximal (run :: rest) rows) : run.stop ∉ rows := by
  obtain ⟨behind, rfl, _, _, later⟩ := maximal.cons
  rw [List.mem_append, not_or]
  refine ⟨fun inside => ?_, fun inside => Nat.lt_irrefl _ (later _ inside)⟩
  exact Nat.lt_irrefl _ (mem_rows.mp inside).2

theorem Maximal.length_le {run other : Run} {rest more : List Run} {rows : List Nat}
    (maximal : Maximal (run :: rest) rows) (covers : Maximal (other :: more) rows)
    (same : run.start = other.start) : other.length ≤ run.length := by
  obtain ⟨behind, whole, _⟩ := covers.cons
  refine Nat.le_of_not_lt fun longer => maximal.stop_not_mem ?_
  rw [whole]
  refine List.mem_append_left _ (mem_rows.mpr ?_)
  simp only [stop]
  omega

theorem Maximal.unique {runs others : List Run} {rows : List Nat} (maximal : Maximal runs rows)
    (covers : Maximal others rows) : runs = others := by
  induction runs generalizing others rows with
  | nil =>
    cases others with
    | nil => rfl
    | cons other more =>
      obtain ⟨behind, whole, _, positive, _⟩ := covers.cons
      rw [← maximal.rows, rows_eq_cons positive] at whole
      cases whole
  | cons run rest ih =>
    obtain ⟨behind, whole, later, positive, _⟩ := maximal.cons
    cases others with
    | nil =>
      rw [← covers.rows, rows_eq_cons positive] at whole
      cases whole
    | cons other more =>
      obtain ⟨behind', whole', later', positive', _⟩ := covers.cons
      have same : run.start = other.start := by
        have heads := whole.symm.trans whole'
        rw [rows_eq_cons positive, rows_eq_cons positive'] at heads
        exact (List.cons.inj heads).1
      have equal : run.length = other.length :=
        Nat.le_antisymm (covers.length_le maximal same.symm) (maximal.length_le covers same)
      obtain rfl : run = other := by
        cases run
        cases other
        cases same
        cases equal
        rfl
      obtain rfl : behind = behind' := List.append_cancel_left (whole.symm.trans whole')
      rw [ih later later']

/-- A row that does not join the last run leaves out the row behind that run. -/
theorem Built.apart_extend {runs : List Run} {rows : List Nat} (built : Built runs rows) {row : Nat}
    (behind : ∀ known ∈ rows, known < row)
    (apart : runs.Pairwise fun later earlier => earlier.stop < later.start) :
    (Run.extend runs row).Pairwise fun later earlier => earlier.stop < later.start := by
  cases runs with
  | nil => exact List.pairwise_singleton _ _
  | cons last rest =>
    obtain ⟨first, others⟩ := List.pairwise_cons.mp apart
    have reached := built.stop_le behind (List.mem_cons_self ..)
    by_cases joined : row = last.stop
    · rw [Run.extend, if_pos joined]
      exact List.pairwise_cons.mpr ⟨first, others⟩
    · rw [Run.extend, if_neg joined]
      refine List.pairwise_cons.mpr ⟨fun run member => ?_, apart⟩
      rcases List.mem_cons.mp member with rfl | old
      · exact Nat.lt_of_le_of_ne reached (Ne.symm joined)
      · have before := first run old
        rw [stop] at reached
        simp only
        omega

theorem apart_foldl_extend {rows : List Nat} (sorted : rows.Pairwise (· < ·)) :
    (rows.foldl extend []).Pairwise fun later earlier => earlier.stop < later.start := by
  induction rows using List.reverseRecOn with
  | nil => exact .nil
  | append_singleton rows row ih =>
    obtain ⟨front, _, apart⟩ := List.pairwise_append.mp sorted
    rw [List.foldl_append, List.foldl_cons, List.foldl_nil]
    refine (built_ofRows front).apart_extend (fun known member => ?_) (ih front)
    exact apart known member row (by simp)

/-- The runs of an increasing list are its maximal ones. -/
theorem maximal_ofRows {rows : List Nat} (sorted : rows.Pairwise (· < ·)) :
    Maximal (ofRows rows) rows where
  rows := flatMap_ofRows sorted
  nonempty := fun run member => (built_ofRows sorted).nonempty run (List.mem_reverse.mp member)
  apart := List.pairwise_reverse.mpr (apart_foldl_extend sorted)

theorem maximal_iff {rows : List Nat} (sorted : rows.Pairwise (· < ·)) {runs : List Run} :
    Maximal runs rows ↔ runs = ofRows rows :=
  ⟨fun maximal => maximal.unique (maximal_ofRows sorted), fun made => made ▸ maximal_ofRows sorted⟩

end Run

namespace GapRun

/-- The pairs of one run behind a gap: one for each word of the gap but the last, which add no rows,
and one for each word of the length. -/
def countFor (gap length : Nat) : Nat := (max (gap ⌈/⌉ maxWord) 1 - 1) + length ⌈/⌉ maxWord

/-- The pairs of runs whose gaps are counted from the end of the run before, and the first of them
from row `stop`. -/
def countFrom (stop : Nat) : List Run → Nat
  | [] => 0
  | run :: rest => countFor (run.start - stop) run.length + countFrom run.stop rest

theorem length_split {gap length : Nat} (positive : 0 < length) :
    (split gap length).length = countFor gap length := by
  have skips : max (gap ⌈/⌉ maxWord) 1 - 1 = (gap - 1) / maxWord := by
    rw [Nat.ceilDiv_eq_add_pred_div, maxWord]
    omega
  have parts : length ⌈/⌉ maxWord = 1 + (length - min length maxWord) / maxWord +
      if (length - min length maxWord) % maxWord = 0 then 0 else 1 := by
    rw [Nat.ceilDiv_eq_add_pred_div, maxWord]
    split <;> omega
  rw [countFor, skips, parts, split]
  simp only [List.length_append, List.length_cons, List.length_replicate]
  split
  next => rw [List.length_nil]; omega
  next => rw [List.length_singleton]; omega

theorem length_ofRuns {stop : Nat} {runs : List Run} (nonempty : ∀ run ∈ runs, 0 < run.length) :
    (ofRuns stop runs #[]).toList.length = countFrom stop runs := by
  induction runs generalizing stop with
  | nil => rfl
  | cons run rest ih =>
    rw [toList_ofRuns_cons, List.length_append, length_split (nonempty run (by simp)),
      ih fun other member => nonempty other (List.mem_cons_of_mem _ member), countFrom]

end GapRun

theorem RunStreams.pairCount_eq {rows : List Nat} (sorted : rows.Pairwise (· < ·)) :
    RunStreams.pairCount rows = GapRun.countFrom 0 (Run.ofRows rows) := by
  rw [RunStreams.pairCount, GapRun.ofRows,
    GapRun.length_ofRuns (Run.maximal_ofRows sorted).nonempty]

end PackedMatrix
