import PackedMatrix.Proofs.Coherence
import PackedMatrix.Proofs.FailureContexts
import PackedMatrix.Proofs.Influence

namespace PackedMatrix

open PackError

namespace Compressor

variable {block : Block} {settings normal : Settings} {grouper : Grouper} {stats : Statistics}
  {plans : List ColumnPlan} {groups : List Group} {error : PackError} {threads : Threads}

theorem bare_classify (source : Source) (settings : Settings) (grouper : Grouper) :
    FailsWith Bare (classify source settings grouper) :=
  .ite (.map some (ColumnCosts.bare_ofSource source settings)) (.ok none)

theorem bare_group (shipped : grouper.Shipped) (costs : List ColumnCosts) (cols : Nat)
    (settings : Settings) : FailsWith Bare (group costs cols settings grouper) := by
  rcases shipped with rfl | ⟨plans, rfl⟩
  · exact ColumnPlan.bare_validate _ cols settings
  · exact ColumnPlan.bare_validate plans cols settings

theorem bare_estimate (source : Source) (settings : Settings) (plans : List ColumnPlan) :
    FailsWith Bare (estimate source settings plans) :=
  .bind (.mapM fun plan _ => .bind (ColumnCosts.bare_ofColumns source settings plan.columns)
    fun _ => .ok _) fun _ => .ok _

theorem bare_assemble (block : Block) (groups : List Group) :
    FailsWith Bare (assemble block groups) :=
  .ite (Packed.bare_ofGroups _ _ _)
    (.bind (Block.bare_selectColumns _ _ _) fun _ => Packed.bare_ofGroups _ _ _)

theorem invalid_normalize (settings : Settings) :
    FailsWith (fun error => ∃ cause, error = .invalidSettings cause) settings.normalize := by
  refine .ite (.error ⟨_, rfl⟩) ?_
  split
  next => exact .error ⟨_, rfl⟩
  next => exact .ok _

theorem Reached.requestable (reached : Reached block normal grouper plans)
    (ranged : settings.normalize = .ok normal) :
    ∀ plan ∈ plans, plan.columns ≠ [] ∧ plan.encoding.isRequestable = true := by
  obtain ⟨_, _, grouped⟩ := reached.grouped
  obtain ⟨given, _, checked⟩ := bind_eq_ok grouped
  obtain ⟨_, each⟩ := ColumnPlan.checkFrom_eq_ok (mapError_eq_ok checked)
  exact fun plan member => ⟨(each plan member).1,
    (Settings.normalize_eq_ok ranged).1 _ (each plan member).2⟩

/-- A failure of planned groups: some plan is the first one that fails, and the failure names its
encoding and the columns that were to be stored together. -/
def FirstFailure (source : Source) (settings : Settings) (plans : List ColumnPlan)
    (error : PackError) : Prop :=
  ∃ before plan after columns cause, plans = before ++ plan :: after ∧
    (∀ earlier ∈ before, ∃ groups, Group.ofPlan source settings earlier = .ok groups) ∧
    error = .construction columns plan.encoding cause ∧ cause.source? = none ∧
    (Group.Splits source plan → columns = plan.columns.filter (!source.isColumnEmpty ·)) ∧
    (¬ Group.Splits source plan → columns = plan.columns)

theorem firstFailure_ofPlans {source : Source}
    (requestable : ∀ plan ∈ plans, plan.columns ≠ [] ∧ plan.encoding.isRequestable = true)
    (h : Group.ofPlans source settings plans = .error error) :
    FirstFailure source settings plans error := by
  obtain ⟨before, plan, after, rfl, passed, failed⟩ :=
    mapM_eq_error (eq_error_of_bind_pure h)
  obtain ⟨nonempty, asked⟩ := requestable plan (by simp)
  obtain ⟨columns, ⟨cause, named, bare⟩, split⟩ :=
    Group.constructing_ofPlan nonempty asked failed
  exact ⟨before, plan, after, columns, cause, rfl, passed, named, bare.source?_eq, split⟩

theorem inner_ofPlans {source : Source}
    (requestable : ∀ plan ∈ plans, plan.columns ≠ [] ∧ plan.encoding.isRequestable = true) :
    FailsWith Inner (Group.ofPlans source settings plans) := by
  refine .bind (.mapM fun plan member _ failed => ?_) fun _ => .ok _
  obtain ⟨nonempty, asked⟩ := requestable plan member
  obtain ⟨_, constructing, _⟩ := Group.constructing_ofPlan nonempty asked failed
  exact constructing.inner

theorem FirstFailure.unphased {source : Source}
    (first : FirstFailure source settings plans error) : error.Unphased := by
  obtain ⟨_, _, _, _, _, _, _, rfl, _⟩ := first
  trivial

/-- A failed attempt names the phase that failed, and names it once. -/
theorem Ends.inPhase (ends : Ends block normal grouper ⟨.error error, stats⟩)
    (shipped : grouper.Shipped) (ranged : settings.normalize = .ok normal) :
    ∃ phase source, error = .inPhase phase source ∧ source.Unphased ∧ source.Inner := by
  have named : ∀ {source : PackError} (phase : Phase), source.Unphased → source.Inner →
      ∃ phase' source', source.duringPhase phase = .inPhase phase' source' ∧ source'.Unphased ∧
        source'.Inner :=
    fun phase unphased inner => ⟨phase, _, unphased.duringPhase_eq phase, unphased, inner⟩
  have bare : ∀ {source : PackError} (phase : Phase), source.Bare →
      ∃ phase' source', source.duringPhase phase = .inPhase phase' source' ∧ source'.Unphased ∧
        source'.Inner :=
    fun phase bare => named phase bare.unphased bare.inner
  cases ends with
  | classifyFails failed => exact bare _ (bare_classify _ _ _ _ failed)
  | groupFails _ failed => exact bare _ (bare_group shipped _ _ _ _ failed)
  | buildFails reached failed =>
    have requestable := reached.requestable ranged
    exact named _ (firstFailure_ofPlans requestable failed).unphased
      (inner_ofPlans requestable _ failed)
  | estimateFails _ failed => exact bare _ (bare_estimate _ _ _ _ failed)
  | assembleFails _ failed => exact bare _ (bare_assemble _ _ _ failed)

/-- Both calls report the same attempt, up to what becomes of its failure. -/
theorem compressWith_withFallback (shipped : grouper.Shipped)
    (inOrder : threads.InOrder settings.parallelism) (ranged : settings.normalize = .ok normal)
    (block : Block) (fallback : Bool) :
    compressWith block { settings with fallbackOnError := fallback } grouper threads =
      (run block normal grouper).report block fallback := by
  have given := Settings.normalize_withFallback settings fallback
  rw [ranged] at given
  have inOrder := inOrder.normalize ranged
  have alone : runOn threads block { normal with fallbackOnError := fallback } grouper = _ :=
    runOn_of_inOrder inOrder
  rw [run_withFallback shipped] at alone
  rw [compressWith_eq_report given, alone]

theorem compressWith_of_refused (refused : settings.normalize = .error error) (block : Block)
    (grouper : Grouper) (threads : Threads) (fallback : Bool) :
    compressWith block { settings with fallbackOnError := fallback } grouper threads =
      .error error := by
  rw [compressWith, Settings.normalize_withFallback, refused]
  rfl

theorem run_of_ofPlans_eq_error (reached : Reached block settings grouper plans)
    (failed : Group.ofPlans (sourceFor block settings plans) settings plans = .error error) :
    (run block settings grouper).result = .error (error.duringPhase .compress) := by
  rw [run_of_reached reached]
  unfold build
  simp only [Block.transposeOn_eq, Source.oriented_def, sourceFor_def, failed]

/-- What a call gives it also gives if the input is handed back in place of a failure. A failure
is either one of the settings, which stays, or else names a phase and what went wrong there, and
then the other call hands back the input untouched, with the texts of the failure and its sources
as the reason. If it is planned groups that fail, the failure tells the phase, the first plan that
fails and its requested encoding. -/
theorem compressWith_fallback (block : Block) (settings : Settings)
    (shipped : grouper.Shipped) (inOrder : threads.InOrder settings.parallelism) :
    let strict := compressWith block { settings with fallbackOnError := false } grouper threads
    let lenient := compressWith block { settings with fallbackOnError := true } grouper threads
    (∀ result, strict = .ok result → lenient = .ok result) ∧
    ∀ error, strict = .error error →
      ((∃ cause, error = .invalidSettings cause ∧ settings.normalize = .error error ∧
          lenient = .error error) ∨
        ∃ phase source causes stats, error = .inPhase phase source ∧
          (∀ other inner, source ≠ .inPhase other inner) ∧ Causes error causes ∧
          lenient = .ok (.plain block, stats) ∧ stats.Untouched ∧ stats.inputSize = block.size ∧
          stats.abort = some (.failed (": ".intercalate (causes.map message)))) ∧
      ∀ normal plans failure, settings.normalize = .ok normal →
        Reached block normal grouper plans →
        Group.ofPlans (sourceFor block normal plans) normal plans = .error failure →
        error = .inPhase .compress failure ∧
          FirstFailure (sourceFor block normal plans) normal plans failure := by
  intro strict lenient
  cases ranged : settings.normalize with
  | error refusal =>
    have refused : strict = .error refusal :=
      compressWith_of_refused ranged block grouper threads false
    have refused' : lenient = .error refusal :=
      compressWith_of_refused ranged block grouper threads true
    rw [refused, refused']
    refine ⟨fun result given => (by cases given), ?_⟩
    rintro error ⟨⟩
    obtain ⟨cause, rfl⟩ := invalid_normalize settings refusal ranged
    exact ⟨.inl ⟨cause, rfl, rfl, rfl⟩, fun normal _ _ accepted => (by cases accepted)⟩
  | ok normal =>
    have reported : strict = _ := compressWith_withFallback shipped inOrder ranged block false
    have reported' : lenient = _ := compressWith_withFallback shipped inOrder ranged block true
    rw [reported, reported', Attempt.report, Attempt.report]
    cases result : (run block normal grouper).result with
    | ok outcome =>
      cases outcome <;> exact ⟨fun _ given => given, fun error given => (by cases given)⟩
    | error failure =>
      refine ⟨fun _ given => (by cases given), ?_⟩
      rintro error ⟨⟩
      have ends : Ends block normal grouper ⟨.error failure, (run block normal grouper).stats⟩ :=
        result ▸ run_ends block normal grouper
      obtain ⟨phase, source, rfl, unphased, inner⟩ := ends.inPhase shipped ranged
      obtain ⟨causes, linked, texts⟩ := exists_causes (show (inPhase phase source).Inner from inner)
      refine ⟨.inr ⟨phase, source, causes, _, rfl, ?_, linked, rfl,
        Statistics.untouched_withAbort _ _, ends.inputSize_eq, ?_⟩, ?_⟩
      · rintro other inner rfl
        exact unphased
      · rw [← texts]
        rfl
      · rintro same plans failure ⟨⟩ reached failed
        have first := firstFailure_ofPlans (reached.requestable ranged) failed
        have ended := result.symm.trans (run_of_ofPlans_eq_error reached failed)
        rw [first.unphased.duringPhase_eq] at ended
        exact ⟨Except.error.inj ended, first⟩

/-- A column with more rows than can be numbered. -/
def tallColumn : Block := ⟨maxIndex + 1, 1, .dense (Array.replicate (maxIndex + 1) Cell.zero)⟩

/-- Settings that read the block as it is. -/
def upright : Settings := { transposeInput := .never }

theorem reached_tallColumn :
    Reached tallColumn upright (.fixed [⟨[0], .ddc⟩]) [⟨[0], .ddc⟩] := by
  have sorted : [0].mergeSort = [0] := by simp
  refine ⟨⟨none, ⟨rfl, fun list some_ => (by cases some_)⟩, ?_⟩, by simp⟩
  simp only [group, Grouper.fixed, bind, Except.bind, ColumnPlan.validate, ColumnPlan.checkFrom,
    sorted]
  rfl

theorem ofPlans_tallColumn :
    Group.ofPlans (sourceFor tallColumn upright [⟨[0], .ddc⟩]) upright [⟨[0], .ddc⟩] =
      .error (.construction [0] .ddc (.invalidMatrix (.rowLimit 4294967296))) := by
  have plain : sourceFor tallColumn upright [⟨[0], .ddc⟩] = ⟨tallColumn, false⟩ := rfl
  have whole : ¬ Group.Splits ⟨tallColumn, false⟩ ⟨[0], .ddc⟩ := fun splits =>
    Bool.false_ne_true splits.transposed
  have inside : [0].find? (· ≥ (⟨tallColumn, false⟩ : Source).cols) = none := rfl
  have tall : (⟨tallColumn, false⟩ : Source).rows = 4294967296 := rfl
  have extracted : Bitmap.extract [0] ⟨tallColumn, false⟩ =
      .error (.invalidMatrix (.rowLimit 4294967296)) := by
    rw [Bitmap.extract, if_neg (by simp), inside]
    simp only [tall]
    exact if_pos (by decide)
  rw [plain, Group.ofPlans, Pool.collect_caller, List.mapM_cons, Group.ofPlan_of_not_splits whole,
    Group.ofColumns, extracted]
  rfl

/-- The failure of a plan, and the input that is handed back in its place. -/
theorem compressWith_fallback_tallColumn : tallColumn.validate = .ok () ∧ ∃ stats,
    compressWith tallColumn { upright with fallbackOnError := false } (.fixed [⟨[0], .ddc⟩]) =
      .error (.inPhase .compress
        (.construction [0] .ddc (.invalidMatrix (.rowLimit 4294967296)))) ∧
    compressWith tallColumn { upright with fallbackOnError := true } (.fixed [⟨[0], .ddc⟩]) =
      .ok (.plain tallColumn, stats) ∧
    stats.abort = some (.failed ("compression failed in the compress phase: failed to construct " ++
      "DDC column group over columns [0]: invalid matrix: " ++
      "4294967296 rows exceed the row index range")) := by
  refine ⟨by simp [Block.validate, tallColumn], ?_⟩
  have shipped : Grouper.Shipped (.fixed [⟨[0], .ddc⟩]) := .inr ⟨_, rfl⟩
  have ranged : upright.normalize = .ok upright := by decide +kernel
  obtain ⟨error, failed⟩ : ∃ error, compressWith tallColumn
      { upright with fallbackOnError := false } (.fixed [⟨[0], .ddc⟩]) = .error error := by
    rw [compressWith_withFallback shipped (Threads.inOrder_caller 1) ranged, Attempt.report,
      run_of_ofPlans_eq_error reached_tallColumn ofPlans_tallColumn]
    exact ⟨_, rfl⟩
  obtain ⟨either, building⟩ := (compressWith_fallback tallColumn upright shipped
    (Threads.inOrder_caller 1)).2 error failed
  obtain ⟨rfl, _⟩ := building upright _ _ ranged reached_tallColumn ofPlans_tallColumn
  obtain ⟨_, invalid, _⟩ | ⟨_, _, causes, stats, _, _, linked, given, _, _, abort⟩ := either
  · cases invalid
  · refine ⟨stats, failed, given, ?_⟩
    rcases linked with ⟨⟨⟩⟩ | ⟨⟨⟩, ⟨⟨⟩⟩ | ⟨⟨⟩, ⟨⟩ | ⟨⟨⟩, _⟩⟩⟩
    rw [abort]
    decide +kernel

end Compressor

end PackedMatrix
