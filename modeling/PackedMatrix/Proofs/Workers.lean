import PackedMatrix.Proofs.Endings
import PackedMatrix.Proofs.Influence

namespace PackedMatrix

variable {α β : Type} {fails : PackError → Prop}

/-- A result is the one that is expected, or else both are failures of a kind. -/
def SameUnless (fails : PackError → Prop) (result expected : Except PackError α) : Prop :=
  result = expected ∨ ∃ error first, result = .error error ∧ expected = .error first ∧
    fails error ∧ fails first

namespace SameUnless

variable {result expected : Except PackError α}

theorem map (same : SameUnless fails result expected) (change : α → β) :
    SameUnless fails (result.map change) (expected.map change) := by
  rcases same with rfl | ⟨error, first, rfl, rfl, kinds⟩
  · exact .inl rfl
  · exact .inr ⟨error, first, rfl, rfl, kinds⟩

theorem mono {other : PackError → Prop} (same : SameUnless fails result expected)
    (weaker : ∀ error, fails error → other error) : SameUnless other result expected := by
  rcases same with rfl | ⟨error, first, failed, failed', kind, kind'⟩
  · exact .inl rfl
  · exact .inr ⟨error, first, failed, failed', weaker _ kind, weaker _ kind'⟩

theorem trans {last : Except PackError α} (same : SameUnless fails result expected)
    (same' : SameUnless fails expected last) : SameUnless fails result last := by
  rcases same with rfl | ⟨error, first, failed, failed', kind, _⟩
  · exact same'
  · rcases same' with rfl | ⟨_, error', _, failed', _, kind'⟩
    · exact .inr ⟨error, first, failed, failed', kind, by assumption⟩
    · exact .inr ⟨error, error', failed, failed', kind, kind'⟩

theorem symm (same : SameUnless fails result expected) : SameUnless fails expected result := by
  rcases same with rfl | ⟨error, first, failed, failed', kind, kind'⟩
  · exact .inl rfl
  · exact .inr ⟨first, error, failed', failed, kind', kind⟩

theorem eq_ok_iff (same : SameUnless fails result expected) {value : α} :
    result = .ok value ↔ expected = .ok value := by
  rcases same with rfl | ⟨error, first, rfl, rfl, _⟩
  · exact Iff.rfl
  · exact iff_of_false nofun nofun

theorem exists_error_iff (same : SameUnless fails result expected) :
    (∃ error, result = .error error) ↔ ∃ error, expected = .error error := by
  rcases same with rfl | ⟨error, first, rfl, rfl, _⟩
  · exact Iff.rfl
  · exact iff_of_true ⟨error, rfl⟩ ⟨first, rfl⟩

end SameUnless

namespace Pool

variable {pool : Pool}

/-- Workers give what the calling thread gives, up to which of several failures is reported. -/
theorem collect_same (pool : Pool) (work : α → Except PackError β) (items : List α) :
    SameUnless (fun error => ∃ item ∈ items, work item = .error error)
      (pool.collect work items) (items.mapM work) := by
  cases collected : pool.collect work items with
  | ok results => exact .inl (pool.collect_eq_ok_iff.mp collected).symm
  | error error =>
    cases alone : items.mapM work with
    | ok results => cases collected.symm.trans (pool.collect_eq_ok_iff.mpr alone)
    | error first =>
      refine .inr ⟨error, first, rfl, rfl, pool.exists_of_collect_eq_error collected, ?_⟩
      exact caller.exists_of_collect_eq_error alone

/-- Of several failures the first one is reported. -/
def ReportsFirst (pool : Pool) : Prop :=
  ∀ (α β : Type) (work : α → Except PackError β) (items : List α) (error : PackError),
    items.mapM work = .error error → pool.collect work items = .error error

theorem reportsFirst_caller : caller.ReportsFirst := fun _ _ _ _ _ failed => failed

/-- Workers that begin at the end. -/
def backwards : Pool where
  collect work items := (items.reverse.mapM work).map List.reverse
  collect_eq_ok_iff {_ _ work items results} := by
    rw [mapM_eq_ok_iff, ← List.forall₂_reverse_iff, ← mapM_eq_ok_iff]
    constructor
    · intro h
      obtain ⟨values, made, rfl⟩ := map_eq_ok h
      rw [List.reverse_reverse, made]
    · intro h
      rw [h]
      exact congrArg Except.ok results.reverse_reverse
  exists_of_collect_eq_error {_ _ work items error} h := by
    cases made : items.reverse.mapM work with
    | ok values =>
      rw [made] at h
      cases h
    | error cause =>
      rw [made] at h
      cases h
      obtain ⟨item, listed, failed⟩ := caller.exists_of_collect_eq_error made
      exact ⟨item, List.mem_reverse.mp listed, failed⟩
  order parts := (List.range parts).reverse
  order_perm _ := List.reverse_perm _

theorem not_reportsFirst_backwards : ¬ backwards.ReportsFirst := by
  intro first
  cases first Nat Nat (fun item => .error (.threadPool [toString item])) [0, 1] _ rfl

theorem ReportsFirst.collect_eq (first : pool.ReportsFirst) (work : α → Except PackError β)
    (items : List α) : pool.collect work items = items.mapM work := by
  cases alone : items.mapM work with
  | ok results => exact pool.collect_eq_ok_iff.mpr alone
  | error error => exact first _ _ work items error alone

end Pool

theorem ColumnCosts.ofSource_same (pool : Pool) (source : Source) (settings : Settings) :
    SameUnless (fun error => ∃ col, col < source.cols ∧
        ofColumns source settings [col] = .error error)
      (ofSource source settings pool) (ofSource source settings) := by
  refine (pool.collect_same _ _).mono fun error failed => ?_
  obtain ⟨col, listed, failed⟩ := failed
  exact ⟨col, List.mem_range.mp listed, failed⟩

theorem Group.ofPlans_same (pool : Pool) (source : Source) (settings : Settings)
    (plans : List ColumnPlan) :
    SameUnless (fun error => ∃ plan ∈ plans, ofPlan source settings plan = .error error)
      (ofPlans source settings plans pool) (ofPlans source settings plans) :=
  (pool.collect_same (ofPlan source settings) plans).map (·.flatMap id)

/-- An attempt with workers records what one without them records, and ends in the same way up to
which of several failures is reported. -/
structure Attempt.Follows (fails : PackError → Prop) (attempt alone : Attempt) : Prop where
  stats : attempt.stats = alone.stats
  result : SameUnless fails attempt.result alone.result

theorem Attempt.Follows.refl (attempt : Attempt) : attempt.Follows fails attempt :=
  ⟨rfl, .inl rfl⟩

theorem Attempt.Follows.of_errors {error first : PackError} {stats : Statistics}
    (kind : fails error) (kind' : fails first) :
    Attempt.Follows fails ⟨.error error, stats⟩ ⟨.error first, stats⟩ :=
  ⟨rfl, .inr ⟨error, first, rfl, rfl, kind, kind'⟩⟩

namespace Threads

variable {threads : Threads} {workers : Nat}

/-- So many workers can be had. -/
def Serves (threads : Threads) (workers : Nat) : Prop := ∃ pool, threads.pool workers = .ok pool

/-- So many workers can be had, who report the first of several failures. -/
def InOrder (threads : Threads) (workers : Nat) : Prop :=
  ∃ pool, threads.pool workers = .ok pool ∧ pool.ReportsFirst

theorem InOrder.serves (inOrder : threads.InOrder workers) : threads.Serves workers :=
  inOrder.imp fun _ => And.left

theorem inOrder_of_le_one (threads : Threads) (alone : workers ≤ 1) : threads.InOrder workers :=
  ⟨.caller, if_pos alone, Pool.reportsFirst_caller⟩

theorem inOrder_caller (workers : Nat) : caller.InOrder workers := by
  refine ⟨.caller, ?_, Pool.reportsFirst_caller⟩
  unfold pool
  split
  next => rfl
  next => rfl

theorem serves_caller (workers : Nat) : caller.Serves workers := (inOrder_caller workers).serves

theorem pool_max_one (threads : Threads) (workers : Nat) :
    threads.pool (max 1 workers) = threads.pool workers := by
  unfold pool
  by_cases alone : workers ≤ 1
  · rw [if_pos alone, if_pos (by omega)]
  · rw [if_neg alone, if_neg (by omega), Nat.max_eq_right (by omega)]

theorem pool_normalize {settings normal : Settings} (ranged : settings.normalize = .ok normal)
    (threads : Threads) : threads.pool normal.parallelism = threads.pool settings.parallelism := by
  rw [Settings.parallelism_of_normalize ranged, pool_max_one]

theorem serves_normalize {settings normal : Settings} (ranged : settings.normalize = .ok normal) :
    threads.Serves normal.parallelism ↔ threads.Serves settings.parallelism := by
  rw [Serves, pool_normalize ranged, Serves]

theorem Serves.normalize {settings normal : Settings} (serves : threads.Serves settings.parallelism)
    (ranged : settings.normalize = .ok normal) : threads.Serves normal.parallelism :=
  (serves_normalize ranged).mpr serves

theorem InOrder.normalize {settings normal : Settings}
    (inOrder : threads.InOrder settings.parallelism) (ranged : settings.normalize = .ok normal) :
    threads.InOrder normal.parallelism := by
  rw [InOrder, pool_normalize ranged]
  exact inOrder

theorem exists_of_not_serves (unserved : ¬ threads.Serves workers) : ∃ reasons,
    threads.start workers = .error reasons ∧
      threads.pool workers = .error (.threadPool reasons) := by
  by_cases alone : workers ≤ 1
  · exact absurd (threads.inOrder_of_le_one alone).serves unserved
  · have several : threads.pool workers = (threads.start workers).mapError .threadPool :=
      if_neg alone
    cases started : threads.start workers with
    | ok pool =>
      rw [started] at several
      exact absurd ⟨pool, several⟩ unserved
    | error reasons =>
      rw [started] at several
      exact ⟨reasons, rfl, several⟩

end Threads

namespace Compressor

variable {block : Block} {settings normal : Settings} {grouper : Grouper} {stats : Statistics}
  {plans : List ColumnPlan} {pool : Pool} {threads : Threads} {matrix : Packed}

section Fails

variable (block : Block) (settings : Settings) (grouper : Grouper)

/-- The failures of the items that workers share out in an attempt. -/
inductive ItemFails : PackError → Prop
  | column {col : Nat} {cause : PackError} (inside : col < block.cols)
      (failed : ColumnCosts.ofColumns ⟨block, false⟩ settings [col] = .error cause) :
      ItemFails (cause.duringPhase .classify)
  | plan {plans : List ColumnPlan} {plan : ColumnPlan} {cause : PackError}
      (reached : Reached block settings grouper plans) (planned : plan ∈ plans)
      (failed : Group.ofPlan (sourceFor block settings plans) settings plan = .error cause) :
      ItemFails (cause.duringPhase .compress)

end Fails

theorem build_follows (reached : Reached block settings grouper plans) (stats : Statistics)
    (pool : Pool) : (build block settings plans stats pool).Follows
      (ItemFails block settings grouper) (build block settings plans stats) := by
  unfold build
  simp only [Block.transposeOn_eq, Source.oriented_def, sourceFor_def]
  rcases Group.ofPlans_same pool (sourceFor block settings plans) settings plans with
    same | ⟨error, first, failed, failed', ⟨plan, planned, fails⟩, plan', planned', fails'⟩
  · rw [same]
    exact .refl _
  · rw [failed, failed']
    exact .of_errors (.plan reached planned fails) (.plan reached planned' fails')

/-- Workers make no difference to an attempt but for which of several failures is reported. -/
theorem run_follows (block : Block) (settings : Settings) (grouper : Grouper) (pool : Pool) :
    (run block settings grouper pool).Follows (ItemFails block settings grouper)
      (run block settings grouper) := by
  have classified : SameUnless (fun error => ∃ col, col < block.cols ∧
        ColumnCosts.ofColumns ⟨block, false⟩ settings [col] = .error error)
      (classify ⟨block, false⟩ settings grouper pool)
      (classify ⟨block, false⟩ settings grouper) := by
    unfold classify
    split
    next => exact (ColumnCosts.ofSource_same pool _ settings).map some
    next => exact .inl rfl
  unfold run
  simp only
  rcases classified with
    same | ⟨error, first, failed, failed', ⟨col, inside, fails⟩, col', inside', fails'⟩
  · rw [same]
    cases found : classify ⟨block, false⟩ settings grouper with
    | error error => exact .refl _
    | ok costs =>
      simp only
      split
      next => exact .refl _
      next some_ =>
        have worthwhile : Classified block settings grouper costs := by
          refine ⟨found, ?_⟩
          rintro list rfl zero
          exact some_ (by simp [zero])
        cases grouped : group (costs.getD []) block.cols settings grouper with
        | error error => exact .refl _
        | ok plans =>
          simp only
          split
          next => exact .refl _
          next planned =>
            exact build_follows ⟨⟨costs, worthwhile, grouped⟩, by simpa using planned⟩ _ pool
  · rw [failed, failed']
    exact .of_errors (.column inside fails) (.column inside' fails')

theorem run_of_reportsFirst (first : pool.ReportsFirst) (block : Block) (settings : Settings)
    (grouper : Grouper) : run block settings grouper pool = run block settings grouper := by
  have costed : ∀ source, ColumnCosts.ofSource source settings pool =
      ColumnCosts.ofSource source settings := fun source => first.collect_eq _ _
  have built : ∀ source plans, Group.ofPlans source settings plans pool =
      Group.ofPlans source settings plans := fun source plans => by
    rw [Group.ofPlans, first.collect_eq]
    rfl
  simp only [run, classify, build, costed, built, Block.transposeOn_eq]

theorem runOn_of_inOrder (inOrder : threads.InOrder settings.parallelism) :
    runOn threads block settings grouper = run block settings grouper := by
  obtain ⟨pool, had, first⟩ := inOrder
  rw [runOn, had]
  exact run_of_reportsFirst first block settings grouper

theorem runOn_follows (serves : threads.Serves settings.parallelism) :
    (runOn threads block settings grouper).Follows (ItemFails block settings grouper)
      (run block settings grouper) := by
  obtain ⟨pool, had⟩ := serves
  rw [runOn, had]
  exact run_follows block settings grouper pool

/-- Without its workers an attempt fails in the first phase, and says why there are none. -/
theorem runOn_of_not_serves (unserved : ¬ threads.Serves settings.parallelism) (block : Block)
    (grouper : Grouper) : ∃ reasons,
    threads.start settings.parallelism = .error reasons ∧
      runOn threads block settings grouper =
        ⟨.error (.inPhase .classify (.threadPool reasons)), ran (.start block.size) .classify⟩ := by
  obtain ⟨reasons, failed, none_⟩ := Threads.exists_of_not_serves unserved
  exact ⟨reasons, failed, by rw [runOn, none_]; rfl⟩

theorem runOn_eq_ok {outcome : Outcome}
    (h : (runOn threads block settings grouper).result = .ok outcome) :
    (run block settings grouper).result = .ok outcome ∧
      (runOn threads block settings grouper).stats = (run block settings grouper).stats := by
  cases had : threads.pool settings.parallelism with
  | error error =>
    rw [runOn, had] at h
    cases h
  | ok pool =>
    have follows : (runOn threads block settings grouper).Follows _ _ := runOn_follows ⟨pool, had⟩
    exact ⟨follows.result.eq_ok_iff.mp h, follows.stats⟩

/-- A call that gives a compressed matrix has made an attempt, with settings in range, that did. -/
theorem compressWith_eq_packed
    (h : compressWith block settings grouper threads = .ok (.packed matrix, stats)) : ∃ normal,
      settings.normalize = .ok normal ∧
        (run block normal grouper).result = .ok (.compressed matrix) ∧
        (run block normal grouper).stats = stats := by
  obtain ⟨normal, ranged, ⟨found, result, given, rfl⟩ | ⟨_, _, given, _⟩ | ⟨_, _, _, given, _⟩⟩ :=
    compressWith_eq_ok h
  · cases given
    obtain ⟨compressed, same⟩ := runOn_eq_ok result
    exact ⟨normal, ranged, compressed, same.symm⟩
  · cases given
  · cases given

theorem compressWith_of_ok {outcome : Outcome} (ranged : settings.normalize = .ok normal)
    (serves : threads.Serves settings.parallelism)
    (result : (run block normal grouper).result = .ok outcome) :
    compressWith block settings grouper threads =
      (run block normal grouper).report block normal.fallbackOnError := by
  have follows : (runOn threads block normal grouper).Follows _ _ :=
    runOn_follows (serves.normalize ranged)
  rw [compressWith_eq_report ranged, Attempt.report, Attempt.report,
    follows.result.eq_ok_iff.mpr result, follows.stats, result]

theorem compressWith_of_compressed (ranged : settings.normalize = .ok normal)
    (serves : threads.Serves settings.parallelism)
    (compressed : (run block normal grouper).result = .ok (.compressed matrix)) :
    compressWith block settings grouper threads =
      .ok (.packed matrix, (run block normal grouper).stats) := by
  rw [compressWith_of_ok ranged serves compressed, Attempt.report, compressed]

/-- A call that gives a matrix reports how an attempt with settings in range ended, or hands back
the input for want of workers. -/
theorem ends_of_compressWith {given : Matrix}
    (h : compressWith block settings grouper threads = .ok (given, stats)) : ∃ normal,
      settings.normalize = .ok normal ∧
      ((∃ result before, Ends block normal grouper ⟨result, before⟩ ∧
        ((∃ matrix, result = .ok (.compressed matrix) ∧ given = .packed matrix ∧ stats = before) ∨
          ∃ reason, given = .plain block ∧ stats = before.withAbort reason ∧
            (result = .ok (.aborted reason) ∨
              ∃ error text, result = .error error ∧ reason = .failed text))) ∨
        ¬ threads.Serves settings.parallelism ∧ given = .plain block ∧ ∃ text,
          stats = (ran (.start block.size) .classify).withAbort (.failed text)) := by
  obtain ⟨normal, ranged, ends⟩ := compressWith_eq_ok h
  refine ⟨normal, ranged, ?_⟩
  by_cases serves : threads.Serves settings.parallelism
  · have follows : (runOn threads block normal grouper).Follows _ _ :=
      runOn_follows (serves.normalize ranged)
    refine .inl ⟨(run block normal grouper).result, (run block normal grouper).stats,
      run_ends block normal grouper, ?_⟩
    rw [← follows.stats]
    rcases ends with ⟨matrix, result, same, left⟩ | ⟨reason, result, same, left⟩ |
      ⟨error, result, _, same, left⟩
    · exact .inl ⟨matrix, follows.result.eq_ok_iff.mp result, same, left⟩
    · exact .inr ⟨reason, same, left, .inl (follows.result.eq_ok_iff.mp result)⟩
    · obtain ⟨first, failed⟩ := follows.result.exists_error_iff.mp ⟨error, result⟩
      exact .inr ⟨_, same, left, .inr ⟨first, _, failed, rfl⟩⟩
  · obtain ⟨reasons, _, failed⟩ := runOn_of_not_serves (fun served =>
      serves ((Threads.serves_normalize ranged).mp served)) block grouper
    simp only [failed] at ends
    obtain ⟨_, none_, _⟩ | ⟨_, none_, _⟩ | ⟨error, _, _, same, left⟩ := ends
    · cases none_
    · cases none_
    · exact .inr ⟨serves, same, _, left⟩

end Compressor

end PackedMatrix
