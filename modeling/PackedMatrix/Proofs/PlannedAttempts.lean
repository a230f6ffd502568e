import PackedMatrix.Proofs.RecordedEstimates
import PackedMatrix.Proofs.StreamLimits

namespace PackedMatrix

namespace Compressor

variable {block : Block} {settings normal : Settings} {grouper : Grouper} {stats : Statistics}
  {groups : List Group} {plans : List ColumnPlan} {matrix : Packed} {threads : Threads}

/-- A call fails if its attempt does and the input is not to be handed back. -/
theorem compressWith_eq_error_iff (ranged : settings.normalize = .ok normal)
    (serves : threads.Serves settings.parallelism) :
    (∃ error, compressWith block settings grouper threads = .error error) ↔
      normal.fallbackOnError = false ∧
        ∃ error, (run block normal grouper).result = .error error := by
  have follows : (runOn threads block normal grouper).Follows _ _ :=
    runOn_follows (serves.normalize ranged)
  rw [compressWith_eq_report ranged, ← follows.result.exists_error_iff, Attempt.report]
  cases (runOn threads block normal grouper).result with
  | ok outcome => cases outcome <;> simp
  | error error =>
    cases normal.fallbackOnError with
    | true => simp
    | false => exact iff_of_true ⟨error, rfl⟩ ⟨rfl, error, rfl⟩

theorem exists_finish (made : assemble block groups = .ok matrix) (stats : Statistics) :
    ∃ outcome, (finish block groups stats).result = .ok outcome := by
  rw [finish_of_assembled made]
  split
  next => exact ⟨_, rfl⟩
  next => exact ⟨_, rfl⟩

theorem exists_estimate {source : Source} (valid : source.WellFormed)
    (planned : ∀ plan ∈ plans, plan.columns.Pairwise (· < ·) ∧
      ∀ col ∈ plan.columns, col < source.cols) :
    ∃ size, estimate source settings plans = .ok size := by
  rw [estimate, exists_bind_pure_iff, exists_mapM_iff]
  intro plan member
  obtain ⟨sorted, inside⟩ := planned plan member
  exact ⟨_, by simp only [ColumnCosts.ofColumns, Bitmap.extract_of_inside valid sorted inside]; rfl⟩

section Plans

variable (valid : block.WellFormed) (short : block.rows ≤ maxIndex) (narrow : block.cols ≤ maxIndex)
  (distinct : (plans.flatMap ColumnPlan.columns).Nodup)
  (planned : ∀ plan ∈ plans, plan.columns ≠ [] ∧ plan.columns.Pairwise (· < ·) ∧
    (∀ col ∈ plan.columns, col < block.cols) ∧ plan.encoding.isRequestable = true)
  (transposed : Bool)

include valid short narrow planned

theorem accepted_of_plan {plan : ColumnPlan} (member : plan ∈ plans)
    (h : Group.ofPlan (.oriented block transposed) settings plan = .ok groups) :
    ∀ group ∈ groups, group.Accepted ∧ group.rows = block.rows := by
  obtain ⟨nonempty, sorted, _⟩ := planned plan member
  rw [← Source.rows_oriented block transposed]
  exact Group.accepted_ofPlan (Source.wellFormed_oriented valid short narrow transposed) nonempty
    sorted h

include distinct

/-- Groups that were built for all plans make up a matrix with the columns that are left. -/
theorem exists_assemble_of_ofPlans
    (h : Group.ofPlans (.oriented block transposed) settings plans = .ok groups) :
    ∃ matrix, assemble block groups = .ok matrix := by
  have columns := Group.columns_ofPlans h
  refine exists_assemble valid short narrow ?_ (columns.nodup_iff.mpr distinct) ?_
  · obtain ⟨parts, made, same⟩ := bind_eq_ok h
    cases same
    rw [List.flatMap_id]
    intro group member
    obtain ⟨part, listed, here⟩ := List.mem_flatten.mp member
    obtain ⟨plan, inPlans, run⟩ := exists_of_mem_mapM made listed
    exact accepted_of_plan valid short narrow planned transposed inPlans run group here
  · intro col member
    obtain ⟨plan, inPlans, inPlan⟩ := List.mem_flatMap.mp (columns.mem_iff.mp member)
    obtain ⟨_, _, inside, _⟩ := planned plan inPlans
    exact inside col inPlan

variable (positive : 0 < settings.offsetBlockSize)
  (most : settings.offsetBlockSize ≤ Settings.maxOffsetBlockSize)

include positive most

theorem build_eq_error_iff : (∃ error, (build block settings plans stats).result = .error error) ↔
    ∃ plan ∈ plans, plan.overflows (.oriented block
      (settings.shouldTranspose block.rows block.cols plans.length))
        settings.offsetBlockSize = true := by
  have source := Source.wellFormed_oriented valid short narrow
    (settings.shouldTranspose block.rows block.cols plans.length)
  have within : ∀ plan ∈ plans, plan.columns ≠ [] ∧ plan.columns.Pairwise (· < ·) ∧
      (∀ col ∈ plan.columns, col < (Source.oriented block
        (settings.shouldTranspose block.rows block.cols plans.length)).cols) ∧
          plan.encoding.isRequestable = true := by
    rw [Source.cols_oriented]
    exact planned
  have limit := Group.exists_ofPlans_iff source positive most within
  unfold build
  simp only [Block.transposeOn_eq, Source.oriented_def]
  cases made : Group.ofPlans (.oriented block
      (settings.shouldTranspose block.rows block.cols plans.length)) settings plans with
  | error error =>
    simp only [made, reduceCtorEq, exists_false, false_iff] at limit
    push Not at limit
    exact iff_of_true ⟨_, rfl⟩ (by simpa using limit)
  | ok groups =>
    have none_ : ¬ ∃ plan ∈ plans, plan.overflows (.oriented block
        (settings.shouldTranspose block.rows block.cols plans.length))
          settings.offsetBlockSize = true := by
      simpa using limit.mp ⟨groups, made⟩
    obtain ⟨matrix, assembled⟩ := exists_assemble_of_ofPlans valid short narrow distinct planned
      (settings.shouldTranspose block.rows block.cols plans.length) made
    have finished : ∀ stats, ¬ ∃ error, (finish block groups stats).result = .error error := by
      rintro stats ⟨error, failed⟩
      obtain ⟨outcome, ended⟩ := exists_finish assembled stats
      cases ended.symm.trans failed
    refine iff_of_false ?_ none_
    obtain ⟨size, sized⟩ : ∃ size, estimate _ settings plans = .ok size := exists_estimate source
      fun plan member => ⟨(within plan member).2.1, (within plan member).2.2.1⟩
    simp only [sized]
    split
    next => exact finished _
    next => exact finished _

end Plans

/-- With settings and plans that are accepted and workers that can be had, a call fails exactly if
the input is not to be handed back and some planned group has streams of more words than pointers
can tell. Whatever groups are built for a plan are valid, and those of all plans make up a matrix
with the columns that are left. -/
theorem compressWith_fixed_eq_error_iff (valid : block.validate = .ok ())
    (short : block.rows < maxIndex) (narrow : block.cols ≤ maxIndex)
    (serves : threads.Serves settings.parallelism)
    (ranged : settings.normalize = .ok normal) {accepted : List ColumnPlan}
    (checked : ColumnPlan.validate plans block.cols normal = .ok accepted) :
    let source := Source.oriented block
      (normal.shouldTranspose block.rows block.cols accepted.length)
    ((∃ error, compressWith block settings (.fixed plans) threads = .error error) ↔
      normal.fallbackOnError = false ∧
        ∃ plan ∈ accepted, plan.overflows source normal.offsetBlockSize = true) ∧
    (∀ plan ∈ accepted, ∀ groups, Group.ofPlan source normal plan = .ok groups →
      ∀ group ∈ groups, group.validate = .ok ()) ∧
    ∀ groups, Group.ofPlans source normal accepted = .ok groups →
      ∃ matrix, assemble block groups = .ok matrix := by
  have fit := Block.wellFormed_of_validate valid
  have rows := Nat.le_of_lt short
  obtain ⟨requestable, _⟩ := Settings.normalize_eq_ok ranged
  obtain ⟨positive, most⟩ := Settings.offsetBlockSize_of_normalize ranged
  obtain ⟨distinct, sorted⟩ := ColumnPlan.columns_of_validate checked
  obtain ⟨_, allowed⟩ := ColumnPlan.checkFrom_eq_ok (mapError_eq_ok checked)
  have planned : ∀ plan ∈ accepted, plan.columns ≠ [] ∧ plan.columns.Pairwise (· < ·) ∧
      (∀ col ∈ plan.columns, col < block.cols) ∧ plan.encoding.isRequestable = true := by
    intro plan member
    obtain ⟨nonempty, enabled⟩ := allowed plan member
    obtain ⟨order, inside⟩ := sorted plan member
    exact ⟨nonempty, order, inside, requestable _ enabled⟩
  refine ⟨?_, ?_, ?_⟩
  · rw [compressWith_eq_error_iff ranged serves]
    refine and_congr_right fun _ => ?_
    have grouped : group [] block.cols normal (.fixed plans) = .ok accepted := checked
    by_cases none_ : accepted = []
    · subst none_
      simp [run_of_no_plans rfl grouped]
    · rw [run_of_group rfl grouped none_]
      exact build_eq_error_iff fit rows narrow distinct planned positive most
  · intro plan member groups built group inGroups
    have accepted := accepted_of_plan fit rows narrow planned _ member built group inGroups
    exact Group.validate_eq_ok_iff.mpr accepted.1
  · intro groups built
    exact exists_assemble_of_ofPlans fit rows narrow distinct planned _ built

/-- A column with two tuples, and one that is left. -/
def twoTuples : Block where
  rows := 4
  cols := 2
  data := .dense #[⟨1⟩, ⟨5⟩, ⟨1⟩, ⟨6⟩, ⟨2⟩, ⟨7⟩, ⟨0⟩, ⟨8⟩]

theorem compressWith_fixed_eq_error_iff_twoTuples :
    twoTuples.validate = .ok () ∧ twoTuples.rows < maxIndex ∧ twoTuples.cols ≤ maxIndex ∧
      ({} : Settings).normalize = .ok {} ∧
      ColumnPlan.validate [⟨[0], .ole⟩] twoTuples.cols {} = .ok [⟨[0], .ole⟩] ∧
      (¬ ∃ error, compressWith twoTuples {} (.fixed [⟨[0], .ole⟩]) = .error error) ∧
      ∃ groups matrix, Group.ofPlans (.oriented twoTuples false) {} [⟨[0], .ole⟩] = .ok groups ∧
        assemble twoTuples groups = .ok matrix := by
  have valid : twoTuples.validate = .ok () := by decide +kernel
  have ranged : ({} : Settings).normalize = .ok {} := by decide +kernel
  have sorted : [0].mergeSort = [0] := List.mergeSort_of_pairwise (by decide)
  have checked : ColumnPlan.validate [⟨[0], .ole⟩] twoTuples.cols {} = .ok [⟨[0], .ole⟩] := by
    simp only [ColumnPlan.validate, ColumnPlan.checkFrom, sorted]
    decide
  have rows : Bitmap.tupleRows [0] (.oriented twoTuples false) =
      [⟨0, [⟨1⟩]⟩, ⟨1, [⟨1⟩]⟩, ⟨2, [⟨2⟩]⟩] := by decide +kernel
  have grouped : Bitmap.ofTupleRows 1 (Bitmap.tupleRows [0] (.oriented twoTuples false)) =
      ⟨1, #[⟨1⟩, ⟨2⟩], [[0, 1], [2]]⟩ := by
    rw [rows]
    simp [Bitmap.ofTupleRows, Grouping.add, Grouping.start]
  have turned : ({} : Settings).shouldTranspose twoTuples.rows twoTuples.cols 1 = false := by decide
  have few : ColumnPlan.overflows (.oriented twoTuples false) ({} : Settings).offsetBlockSize
      ⟨[0], .ole⟩ = false := by
    simp only [ColumnPlan.overflows, CostProfile.ofColumns, List.length_singleton, grouped]
    decide +kernel
  obtain ⟨fails, _, whole⟩ := compressWith_fixed_eq_error_iff valid (by decide) (by decide)
    (Threads.serves_caller 1) ranged checked
  rw [List.length_singleton, turned] at fails whole
  have never : ¬ ∃ error, compressWith twoTuples {} (.fixed [⟨[0], .ole⟩]) = .error error := by
    rw [fails]
    simp [few]
  have source := Source.wellFormed_oriented (Block.wellFormed_of_validate valid) (by decide)
    (by decide) false
  obtain ⟨groups, built⟩ : ∃ groups, Group.ofPlans (.oriented twoTuples false) {} [⟨[0], .ole⟩] =
      .ok groups :=
    (Group.exists_ofPlans_iff source (by decide) (by decide) (by decide)).mpr (by simp [few])
  obtain ⟨matrix, made⟩ := whole groups built
  exact ⟨valid, by decide, by decide, ranged, checked, never, groups, matrix, built, made⟩

end Compressor

end PackedMatrix
