import PackedMatrix.Proofs.Attempts

namespace PackedMatrix

/-- Nothing is recorded of a result yet. -/
structure Statistics.Open (size : Nat) (stats : Statistics) : Prop where
  input : stats.inputSize = size
  groups : stats.groups = 0
  groupTypes : stats.groupTypes = []
  abort : stats.abort = none

namespace Compressor

/-- The source from which the groups of so many plans are built. -/
def sourceFor (block : Block) (settings : Settings) (plans : List ColumnPlan) : Source :=
  .oriented block (settings.shouldTranspose block.rows block.cols plans.length)

theorem sourceFor_def (block : Block) (settings : Settings) (plans : List ColumnPlan) :
    Source.oriented block (settings.shouldTranspose block.rows block.cols plans.length) =
      sourceFor block settings plans := rfl

theorem classify_cheapest (source : Source) (settings : Settings) :
    classify source settings .cheapest = (ColumnCosts.ofSource source settings).map some := rfl

/-- The first phase found no reason to give up. -/
structure Classified (block : Block) (settings : Settings) (grouper : Grouper)
    (costs : Option (List ColumnCosts)) : Prop where
  classified : classify ⟨block, false⟩ settings grouper = .ok costs
  worthwhile : ∀ list, costs = some list → ColumnCosts.compressibleCount list ≠ 0

/-- There are accepted plans. -/
structure Reached (block : Block) (settings : Settings) (grouper : Grouper)
    (plans : List ColumnPlan) : Prop where
  grouped : ∃ costs, Classified block settings grouper costs ∧
    group (costs.getD []) block.cols settings grouper = .ok plans
  planned : plans ≠ []

/-- There are groups for accepted plans, and their estimates if these are wanted. -/
structure Built (block : Block) (settings : Settings) (grouper : Grouper)
    (plans : List ColumnPlan) (groups : List Group) : Prop where
  reached : Reached block settings grouper plans
  built : Group.ofPlans (sourceFor block settings plans) settings plans = .ok groups
  estimated : settings.investigateEstimate = true →
    ∃ size, estimate (sourceFor block settings plans) settings plans = .ok size

section Ends

variable (block : Block) (settings : Settings) (grouper : Grouper)

/-- The ends that an attempt can come to. -/
inductive Ends : Attempt → Prop
  | classifyFails {error : PackError} {stats : Statistics}
      (failed : classify ⟨block, false⟩ settings grouper = .error error)
      (unset : stats.Open block.size) : Ends ⟨.error (error.duringPhase .classify), stats⟩
  | incompressible {costs : List ColumnCosts} {stats : Statistics}
      (classified : classify ⟨block, false⟩ settings grouper = .ok (some costs))
      (none_ : ColumnCosts.compressibleCount costs = 0)
      (unset : stats.Open block.size) : Ends ⟨.ok (.aborted .notCompressible), stats⟩
  | groupFails {costs : Option (List ColumnCosts)} {error : PackError} {stats : Statistics}
      (classified : Classified block settings grouper costs)
      (failed : group (costs.getD []) block.cols settings grouper = .error error)
      (unset : stats.Open block.size) : Ends ⟨.error (error.duringPhase .coCode), stats⟩
  | noPlans {costs : Option (List ColumnCosts)} {stats : Statistics}
      (classified : Classified block settings grouper costs)
      (grouped : group (costs.getD []) block.cols settings grouper = .ok [])
      (unset : stats.Open block.size) : Ends ⟨.ok (.aborted .notCompressible), stats⟩
  | buildFails {plans : List ColumnPlan} {error : PackError} {stats : Statistics}
      (reached : Reached block settings grouper plans)
      (failed : Group.ofPlans (sourceFor block settings plans) settings plans = .error error)
      (unset : stats.Open block.size) : Ends ⟨.error (error.duringPhase .compress), stats⟩
  | estimateFails {plans : List ColumnPlan} {error : PackError} {stats : Statistics}
      (reached : Reached block settings grouper plans)
      (failed : estimate (sourceFor block settings plans) settings plans = .error error)
      (unset : stats.Open block.size) : Ends ⟨.error (error.duringPhase .compress), stats⟩
  | assembleFails {plans : List ColumnPlan} {groups : List Group} {error : PackError}
      {stats : Statistics} (built : Built block settings grouper plans groups)
      (failed : assemble block groups = .error error)
      (unset : stats.Open block.size) : Ends ⟨.error (error.duringPhase .cleanup), stats⟩
  | notBeneficial {plans : List ColumnPlan} {groups : List Group} {matrix : Packed}
      {stats : Statistics} (built : Built block settings grouper plans groups)
      (assembled : assemble block groups = .ok matrix) (large : block.size ≤ matrix.size)
      (unset : stats.Open block.size) : Ends ⟨.ok (.aborted .notBeneficial), stats⟩
  | compressed {plans : List ColumnPlan} {groups : List Group} {matrix : Packed}
      {stats : Statistics} (built : Built block settings grouper plans groups)
      (assembled : assemble block groups = .ok matrix) (small : matrix.size < block.size)
      (unset : stats.Open block.size) :
      Ends ⟨.ok (.compressed matrix), matrix.groups.foldl
        (fun stats group => stats.recordGroup group.encoding)
          (stats.setCompressedSize matrix.size)⟩

end Ends

section Run

variable {block : Block} {settings : Settings} {grouper : Grouper} {stats : Statistics}
  {plans : List ColumnPlan} {groups : List Group}

theorem ends_finish (built : Built block settings grouper plans groups)
    (unset : stats.Open block.size) : Ends block settings grouper (finish block groups stats) := by
  obtain ⟨input, none_, empty, open_⟩ := unset
  have later : (ran stats .cleanup).Open block.size := ⟨input, none_, empty, open_⟩
  cases assembled : assemble block groups with
  | error error =>
    simp only [finish, assembled]
    exact .assembleFails built assembled later
  | ok matrix =>
    rw [finish_of_assembled assembled]
    split
    next large => exact .notBeneficial built assembled (input ▸ large) later
    next small => exact .compressed built assembled (input ▸ Nat.lt_of_not_le small) later

theorem ends_build (reached : Reached block settings grouper plans)
    (unset : stats.Open block.size) :
    Ends block settings grouper (build block settings plans stats) := by
  obtain ⟨input, none_, empty, open_⟩ := unset
  unfold build
  simp only [Block.transposeOn_eq, Source.oriented_def, sourceFor_def]
  cases made : Group.ofPlans (sourceFor block settings plans) settings plans with
  | error error =>
    simp only
    exact .buildFails reached made ⟨input, none_, empty, open_⟩
  | ok groups =>
    simp only
    by_cases investigate : settings.investigateEstimate = true
    · rw [if_pos investigate]
      cases sized : estimate (sourceFor block settings plans) settings plans with
      | error error =>
        simp only
        exact .estimateFails reached sized ⟨input, none_, empty, open_⟩
      | ok size =>
        simp only
        exact ends_finish ⟨reached, made, fun _ => ⟨size, sized⟩⟩ ⟨input, none_, empty, open_⟩
    · rw [if_neg investigate]
      exact ends_finish ⟨reached, made, fun wanted => absurd wanted investigate⟩
        ⟨input, none_, empty, open_⟩

/-- With plans an attempt goes on to build their groups. -/
theorem run_of_reached (reached : Reached block settings grouper plans) :
    run block settings grouper =
      build block settings plans (ran (ran (.start block.size) .classify) .coCode) := by
  obtain ⟨⟨costs, ⟨classified, worthwhile⟩, grouped⟩, planned⟩ := reached
  have go_on : costs.any (fun costs => ColumnCosts.compressibleCount costs == 0) = false := by
    cases costs with
    | none => rfl
    | some list => simpa using worthwhile list rfl
  have some_ : plans.isEmpty = false := by simpa using planned
  simp only [run, classified, go_on, grouped, some_, Bool.false_eq_true, ↓reduceIte]

theorem run_ends (block : Block) (settings : Settings) (grouper : Grouper) :
    Ends block settings grouper (run block settings grouper) := by
  have unset : (ran (.start block.size) .classify).Open block.size := ⟨rfl, rfl, rfl, rfl⟩
  have unset' : (ran (ran (.start block.size) .classify) .coCode).Open block.size :=
    ⟨rfl, rfl, rfl, rfl⟩
  unfold run
  simp only
  cases classified : classify ⟨block, false⟩ settings grouper with
  | error error => exact .classifyFails classified unset
  | ok costs =>
    simp only
    split
    next none_ =>
      obtain ⟨list, rfl, zero⟩ := (Option.any_eq_true _ _).mp none_
      exact .incompressible classified (beq_iff_eq.mp zero) unset
    next some_ =>
      have worthwhile : Classified block settings grouper costs := by
        refine ⟨classified, ?_⟩
        rintro list rfl zero
        exact some_ (by simp [zero])
      cases grouped : group (costs.getD []) block.cols settings grouper with
      | error error => exact .groupFails worthwhile grouped unset'
      | ok plans =>
        simp only
        split
        next empty =>
          rw [List.isEmpty_iff.mp empty] at grouped
          exact .noPlans worthwhile grouped unset'
        next planned =>
          exact ends_build ⟨⟨costs, worthwhile, grouped⟩, by simpa using planned⟩ unset'

theorem ends_of_result {result : Except PackError Outcome}
    (h : (run block settings grouper).result = result) :
    Ends block settings grouper ⟨result, (run block settings grouper).stats⟩ := by
  rw [← h]
  exact run_ends block settings grouper

/-- An attempt that ends with a compressed matrix has built one from accepted plans. -/
theorem run_eq_compressed {matrix : Packed}
    (h : (run block settings grouper).result = .ok (.compressed matrix)) :
    ∃ costs plans stats, group costs block.cols settings grouper = .ok plans ∧
      run block settings grouper = build block settings plans stats := by
  have ends := ends_of_result h
  generalize (run block settings grouper).stats = stats at ends
  cases ends with
  | compressed built =>
    obtain ⟨costs, _, grouped⟩ := built.reached.grouped
    exact ⟨_, _, _, grouped, run_of_reached built.reached⟩

/-- A grouper that needs no costs comes straight to its plans. -/
theorem run_of_group (free : grouper.needsCosts = false)
    (grouped : group [] block.cols settings grouper = .ok plans) (planned : plans ≠ []) :
    run block settings grouper =
      build block settings plans (ran (ran (.start block.size) .classify) .coCode) := by
  have classified : Classified block settings grouper none :=
    ⟨by simp [classify, free], fun list some_ => by cases some_⟩
  exact run_of_reached ⟨⟨none, classified, grouped⟩, planned⟩

end Run

end Compressor

end PackedMatrix
