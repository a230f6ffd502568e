import PackedMatrix.Compressor
import PackedMatrix.Proofs.GroupBuilds
import PackedMatrix.Proofs.GroupChecks
import PackedMatrix.Proofs.PackedReads

namespace PackedMatrix

namespace Source

/-- The block as it is, or its transpose looked at sideways. -/
def oriented (block : Block) (transposed : Bool) : Source :=
  if transposed then ⟨block.transpose, true⟩ else ⟨block, false⟩

theorem oriented_def (block : Block) (transposed : Bool) :
    (if transposed = true then (⟨block.transpose, true⟩ : Source) else ⟨block, false⟩) =
      oriented block transposed := rfl

variable {block : Block}

theorem rows_oriented (block : Block) (transposed : Bool) :
    (oriented block transposed).rows = block.rows := by
  cases transposed with
  | false => rfl
  | true => exact (Block.shape_transpose block).2

theorem cols_oriented (block : Block) (transposed : Bool) :
    (oriented block transposed).cols = block.cols := by
  cases transposed with
  | false => rfl
  | true => exact (Block.shape_transpose block).1

theorem wellFormed_oriented (valid : block.WellFormed) (short : block.rows ≤ maxIndex)
    (narrow : block.cols ≤ maxIndex) (transposed : Bool) :
    (oriented block transposed).WellFormed := by
  cases transposed with
  | false => exact ⟨valid, short, narrow⟩
  | true =>
    obtain ⟨rows, cols⟩ := Block.shape_transpose block
    exact ⟨Block.wellFormed_transpose valid short, rows ▸ narrow, cols ▸ short⟩

/-- Looked at sideways, the transpose shows the cells of the block. -/
theorem cell_oriented (valid : block.WellFormed) (short : block.rows ≤ maxIndex)
    (narrow : block.cols ≤ maxIndex) (transposed : Bool) {row col : Nat} (inRow : row < block.rows)
    (inCol : col < block.cols) : (oriented block transposed).cell row col = block.cell row col := by
  cases transposed with
  | false => rfl
  | true => exact Block.cell_transpose valid short narrow inRow inCol

end Source

namespace Attempt

/-- What a call gives: the matrix, or the input if there is none and no failure is handed on. -/
def report (attempt : Attempt) (block : Block) (fallback : Bool) :
    Except PackError (Matrix × Statistics) :=
  match attempt.result with
  | .ok (.compressed matrix) => .ok (.packed matrix, attempt.stats)
  | .ok (.aborted reason) => .ok (.plain block, attempt.stats.withAbort reason)
  | .error error =>
    if fallback then .ok (.plain block, attempt.stats.withAbort (.failed error.chainText))
    else .error error

theorem report_eq_ok {attempt : Attempt} {block : Block} {fallback : Bool} {given : Matrix}
    {stats : Statistics} (h : attempt.report block fallback = .ok (given, stats)) :
    (∃ matrix, attempt.result = .ok (.compressed matrix) ∧ given = .packed matrix ∧
        stats = attempt.stats) ∨
      (∃ reason, attempt.result = .ok (.aborted reason) ∧ given = .plain block ∧
        stats = attempt.stats.withAbort reason) ∨
      ∃ error, attempt.result = .error error ∧ fallback = true ∧ given = .plain block ∧
        stats = attempt.stats.withAbort (.failed error.chainText) := by
  unfold report at h
  split at h
  next matrix compressed =>
    cases h
    exact .inl ⟨matrix, compressed, rfl, rfl⟩
  next reason aborted =>
    cases h
    exact .inr (.inl ⟨reason, aborted, rfl, rfl⟩)
  next error failed =>
    split at h
    next wanted =>
      cases h
      exact .inr (.inr ⟨error, failed, wanted, rfl, rfl⟩)
    next => cases h

end Attempt

namespace Compressor

variable {block : Block} {settings : Settings} {grouper : Grouper} {stats : Statistics}
  {groups : List Group} {plans : List ColumnPlan} {matrix : Packed}

/-- Counting groups changes the counts of the encodings and the number of groups only. -/
theorem foldl_recordGroup (groups : List Group) (stats : Statistics) :
    groups.foldl (fun stats group => stats.recordGroup group.encoding) stats =
      { stats with
        groupTypes := (groups.map Group.encoding).foldl
          (fun counts encoding => Statistics.upsert Encoding.rank encoding 1 (· + 1) counts)
          stats.groupTypes
        groups := stats.groups + groups.length } := by
  induction groups generalizing stats with
  | nil => rfl
  | cons group rest ih =>
    rw [List.foldl_cons, ih, List.map_cons, List.foldl_cons, List.length_cons]
    simp only [Statistics.recordGroup, Nat.add_right_comm, Nat.add_assoc]

theorem finish_of_assembled (made : assemble block groups = .ok matrix) (stats : Statistics) :
    finish block groups stats =
      if matrix.size ≥ stats.inputSize then
        ⟨.ok (.aborted .notBeneficial), ran stats .cleanup⟩
      else ⟨.ok (.compressed matrix), matrix.groups.foldl
        (fun stats group => stats.recordGroup group.encoding)
          ((ran stats .cleanup).setCompressedSize matrix.size)⟩ := by
  simp only [finish, made]
  rfl

theorem finish_eq_compressed (h : (finish block groups stats).result = .ok (.compressed matrix)) :
    assemble block groups = .ok matrix ∧
      (finish block groups stats).stats.compressedSize = matrix.size ∧
      (finish block groups stats).stats.estimatedSize = stats.estimatedSize := by
  cases made : assemble block groups with
  | error error =>
    simp only [finish, made] at h
    cases h
  | ok packed =>
    rw [finish_of_assembled made] at h ⊢
    by_cases large : packed.size ≥ stats.inputSize
    · rw [if_pos large] at h
      cases h
    · rw [if_neg large] at h ⊢
      cases h
      rw [foldl_recordGroup]
      exact ⟨rfl, rfl, rfl⟩

/-- What it takes for planned groups to end up in a compressed matrix. -/
theorem build_eq_compressed
    (h : (build block settings plans stats).result = .ok (.compressed matrix)) :
    ∃ groups, Group.ofPlans (.oriented block
        (settings.shouldTranspose block.rows block.cols plans.length)) settings plans = .ok groups ∧
      assemble block groups = .ok matrix ∧
      (build block settings plans stats).stats.compressedSize = matrix.size ∧
      (settings.investigateEstimate = true → ∃ size, estimate (.oriented block
        (settings.shouldTranspose block.rows block.cols plans.length)) settings plans = .ok size ∧
          (build block settings plans stats).stats.estimatedSize = some size) := by
  unfold build at h ⊢
  simp only [Block.transposeOn_eq, Source.oriented_def] at h ⊢
  cases made : Group.ofPlans (.oriented block
      (settings.shouldTranspose block.rows block.cols plans.length)) settings plans with
  | error error =>
    simp only [made] at h
    cases h
  | ok groups =>
    simp only [made] at h ⊢
    refine ⟨groups, rfl, ?_⟩
    by_cases investigate : settings.investigateEstimate = true
    · rw [if_pos investigate] at h ⊢
      cases sized : estimate (.oriented block
          (settings.shouldTranspose block.rows block.cols plans.length)) settings plans with
      | error error =>
        simp only [sized] at h
        cases h
      | ok size =>
        simp only [sized] at h ⊢
        obtain ⟨assembled, small, estimated⟩ := finish_eq_compressed h
        exact ⟨assembled, small, fun _ => ⟨size, rfl, estimated⟩⟩
    · rw [if_neg investigate] at h ⊢
      obtain ⟨assembled, small, _⟩ := finish_eq_compressed h
      exact ⟨assembled, small, fun wanted => absurd wanted investigate⟩

theorem run_of_no_plans (free : grouper.needsCosts = false)
    (grouped : group [] block.cols settings grouper = .ok []) :
    (run block settings grouper).result = .ok (.aborted .notCompressible) := by
  simp only [run, classify, free, Bool.false_eq_true, ↓reduceIte, Option.any_none,
    Option.getD_none, grouped, List.isEmpty_nil]

section Calls

variable {threads : Threads} {normal : Settings} {given : Matrix}

theorem compressWith_eq_report (ranged : settings.normalize = .ok normal) :
    compressWith block settings grouper threads =
      (runOn threads block normal grouper).report block normal.fallbackOnError := by
  rw [compressWith, ranged]
  rfl

theorem compressWith_eq_ok (h : compressWith block settings grouper threads = .ok (given, stats)) :
    ∃ normal, settings.normalize = .ok normal ∧
      ((∃ matrix, (runOn threads block normal grouper).result = .ok (.compressed matrix) ∧
          given = .packed matrix ∧ stats = (runOn threads block normal grouper).stats) ∨
        (∃ reason, (runOn threads block normal grouper).result = .ok (.aborted reason) ∧
          given = .plain block ∧
          stats = (runOn threads block normal grouper).stats.withAbort reason) ∨
        ∃ error, (runOn threads block normal grouper).result = .error error ∧
          normal.fallbackOnError = true ∧ given = .plain block ∧
          stats = (runOn threads block normal grouper).stats.withAbort
            (.failed error.chainText)) := by
  obtain ⟨normal, ranged, _⟩ := bind_eq_ok h
  rw [compressWith_eq_report ranged] at h
  exact ⟨normal, ranged, Attempt.report_eq_ok h⟩

/-- A call that gives no compressed matrix hands back its input. -/
theorem eq_of_compressWith_plain {plain : Block}
    (h : compressWith block settings grouper threads = .ok (.plain plain, stats)) :
    plain = block := by
  obtain ⟨_, _, ⟨_, _, given, _⟩ | ⟨_, _, given, _⟩ | ⟨_, _, _, given, _⟩⟩ := compressWith_eq_ok h
  · cases given
  · exact Matrix.plain.inj given
  · exact Matrix.plain.inj given

end Calls

/-- The matrix has the groups that were built, and a copy of the columns that are left. -/
theorem assemble_eq_ok (h : assemble block groups = .ok matrix) :
    matrix.Covered ∧ matrix.rows = block.rows ∧ matrix.cols = block.cols ∧
      (matrix.groups = groups ∨ ∃ copy,
        block.selectColumns (leftover block.cols groups) false = .ok copy ∧
          matrix.groups =
            groups ++ [⟨leftover block.cols groups, copy.rows, .uncompressed copy⟩]) := by
  unfold assemble at h
  simp only at h
  split at h
  next =>
    obtain ⟨rows, cols, parts⟩ := Packed.fields_of_ofGroups h
    exact ⟨Packed.covered_of_ofGroups h, rows, cols, .inl parts⟩
  next =>
    obtain ⟨copy, copied, h⟩ := bind_eq_ok h
    obtain ⟨rows, cols, parts⟩ := Packed.fields_of_ofGroups h
    exact ⟨Packed.covered_of_ofGroups h, rows, cols, .inr ⟨copy, copied, parts⟩⟩

end Compressor

end PackedMatrix
