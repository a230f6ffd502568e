import Mathlib.Algebra.Group.Nat.Defs
import PackedMatrix.Proofs.Coherence
import PackedMatrix.Proofs.DefaultGrouping

namespace PackedMatrix

theorem le_maxIndex_of_lt {rows : Nat} (short : rows < 2 ^ 30) : rows ≤ maxIndex := by
  simp only [maxIndex]
  omega

namespace CostProfile

/-- Streams that make a column smaller than its copy are no longer than the copy, and this is in the
range of pointers. -/
theorem overflows_of_lt {profile : CostProfile} {encoding : Encoding} {size : Nat}
    (single : profile.columns = 1) (short : profile.rows < 2 ^ 30)
    (sized : profile.sizeOf encoding = some size) (less : size < profile.uncompressedSize) :
    profile.overflows encoding = false := by
  have raw : profile.uncompressedSize ≤ 68 + 8 * profile.rows := by
    simp only [uncompressedSize, Group.baseSize, Block.estimateSize, Block.headerSize, single]
    omega
  cases empty : profile.isEmpty with
  | true => exact overflows_of_isEmpty empty encoding
  | false =>
    cases const : profile.isConst with
    | true => simp [overflows, const]
    | false =>
      have tuples : profile.tuples ≠ 0 := by simpa [isEmpty] using empty
      have streams : profile.streamSize = 48 + 12 * profile.tuples := by
        simp only [streamSize, Group.baseSize, Dictionary.estimateSize, Dictionary.headerSize,
          single]
        omega
      simp only [sizeOf, empty, const, Bool.false_eq_true, ↓reduceIte] at sized
      cases encoding with
      | ole =>
        have taken := Option.some.inj sized
        have fits : profile.offsetWords ≤ maxIndex := by
          simp only [maxIndex]
          omega
        simpa [overflows] using fun _ _ => fits
      | rle =>
        have taken := Option.some.inj sized
        have fits : profile.runPairs * 2 ≤ maxIndex := by
          simp only [maxIndex]
          omega
        simpa [overflows] using fun _ _ => fits
      | _ => simp [overflows]

end CostProfile

namespace ColumnCosts

variable {source : Source} {settings : Settings} {col : Nat}

theorem overflows_ofColumn (short : source.rows < 2 ^ 30)
    (compressible : (ofColumn source settings col).isCompressible = true) :
    (ofColumn source settings col).profile.overflows
      (ofColumn source settings col).best.encoding = false := by
  obtain ⟨_, sized⟩ := best_of_isCompressible compressible
  exact CostProfile.overflows_of_lt rfl short sized (of_decide_eq_true compressible)

end ColumnCosts

namespace Compressor

variable {block : Block} {settings normal : Settings} {plans : List ColumnPlan}

/-- From either side, the planned groups of single columns have streams that fit. -/
theorem Reached.fits (valid : block.WellFormed) (short : block.rows < 2 ^ 30)
    (narrow : block.cols ≤ maxIndex) (reached : Reached block settings .cheapest plans)
    (transposed : Bool) : ∀ plan ∈ plans,
      plan.overflows (.oriented block transposed) settings.offsetBlockSize = false := by
  have rows := le_maxIndex_of_lt short
  have alike := Source.alike_oriented valid rows narrow transposed false
  intro plan member
  rw [reached.plans_eq alike.valid'] at member
  obtain ⟨col, listed, rfl⟩ := List.mem_map.mp member
  obtain ⟨inside, compressible⟩ := ColumnCosts.mem_worthwhile_iff.mp listed
  have inside : ∀ other ∈ [col], other < (Source.oriented block transposed).cols := by
    rw [Source.cols_oriented]
    exact List.forall_mem_singleton.mpr inside
  have same := CostProfile.ofColumns_congr alike (List.pairwise_singleton _ col) inside
    settings.offsetBlockSize
  rw [ColumnPlan.overflows, ColumnCosts.cheapestPlan, same]
  exact ColumnCosts.overflows_ofColumn short compressible

/-- The groups of the default grouping are built, and make up a matrix. -/
theorem Reached.exists_result (valid : block.WellFormed) (short : block.rows < 2 ^ 30)
    (narrow : block.cols ≤ maxIndex) (ranged : settings.normalize = .ok normal)
    (reached : Reached block normal .cheapest plans) :
    ∃ outcome, (run block normal .cheapest).result = .ok outcome := by
  have rows := le_maxIndex_of_lt short
  obtain ⟨requestable, _⟩ := Settings.normalize_eq_ok ranged
  obtain ⟨positive, most⟩ := Settings.offsetBlockSize_of_normalize ranged
  obtain ⟨_, _, grouped⟩ := reached.grouped
  obtain ⟨_, _, checked⟩ := bind_eq_ok grouped
  obtain ⟨distinct, sorted⟩ := ColumnPlan.columns_of_validate checked
  obtain ⟨_, allowed⟩ := ColumnPlan.checkFrom_eq_ok (mapError_eq_ok checked)
  have fails_iff : (∃ error, (build block normal plans
      (ran (ran (.start block.size) .classify) .coCode)).result = .error error) ↔ _ :=
    build_eq_error_iff valid rows narrow distinct (fun plan member =>
      ⟨(allowed plan member).1, (sorted plan member).1, (sorted plan member).2,
        requestable _ (allowed plan member).2⟩) positive most
  rw [← run_of_reached reached] at fails_iff
  cases result : (run block normal .cheapest).result with
  | ok outcome => exact ⟨outcome, rfl⟩
  | error error =>
    obtain ⟨plan, member, overflows⟩ := fails_iff.mp ⟨error, result⟩
    rw [reached.fits valid short narrow _ plan member] at overflows
    cases overflows

/-- No phase of an attempt with the default grouping fails. -/
theorem exists_run_cheapest (valid : block.WellFormed) (short : block.rows < 2 ^ 30)
    (narrow : block.cols ≤ maxIndex) (ranged : settings.normalize = .ok normal) :
    ∃ outcome, (run block normal .cheapest).result = .ok outcome := by
  have source : Source.WellFormed ⟨block, false⟩ := ⟨valid, le_maxIndex_of_lt short, narrow⟩
  cases result : (run block normal .cheapest).result with
  | ok outcome => exact ⟨outcome, rfl⟩
  | error error =>
    have absurd_ : ∀ plans, ¬ Reached block normal .cheapest plans := by
      intro plans reached
      obtain ⟨outcome, ok⟩ := reached.exists_result valid short narrow ranged
      cases result.symm.trans ok
    have ends := ends_of_result result
    generalize (run block normal .cheapest).stats = stats at ends
    cases ends with
    | classifyFails failed => cases (classify_cheapest_eq source normal).symm.trans failed
    | groupFails classified failed =>
      cases (classify_cheapest_eq source normal).symm.trans classified.classified
      cases (group_cheapest ⟨block, false⟩ normal).symm.trans failed
    | buildFails reached => exact absurd reached (absurd_ _)
    | estimateFails reached => exact absurd reached (absurd_ _)
    | assembleFails built => exact absurd built.reached (absurd_ _)

theorem Ends.abort_ne_failed {grouper : Grouper} {reason : AbortReason} {stats : Statistics}
    (ends : Ends block settings grouper ⟨.ok (.aborted reason), stats⟩) (text : String) :
    reason ≠ .failed text := by
  cases ends with
  | incompressible => exact nofun
  | noPlans => exact nofun
  | notBeneficial => exact nofun

/-- With fewer than 2 ^ 30 rows, encodings that can be asked for and workers that can be had, the
default compression gives a result, and not because a failure is hidden behind the input. An
encoding with streams is the best one of a compressible column only if the streams are in the range
of pointers. -/
theorem exists_compress (valid : block.validate = .ok ()) (short : block.rows < 2 ^ 30)
    (narrow : block.cols ≤ maxIndex) (some_ : settings.encodings ≠ [])
    (requestable : ∀ encoding ∈ settings.encodings, encoding.isRequestable = true)
    {threads : Threads} (serves : threads.Serves settings.parallelism) :
    ∃ normal costs matrix stats, settings.normalize = .ok normal ∧
      ColumnCosts.ofSource ⟨block, false⟩ normal = .ok costs ∧
      (∀ cost ∈ costs, cost.isCompressible = true →
        cost.profile.overflows cost.best.encoding = false) ∧
      compress block settings threads = .ok (matrix, stats) ∧
      ∀ text, stats.abort ≠ some (.failed text) := by
  have fit := Block.wellFormed_of_validate valid
  have source : Source.WellFormed ⟨block, false⟩ := ⟨fit, le_maxIndex_of_lt short, narrow⟩
  obtain ⟨normal, ranged⟩ := Settings.exists_normalize some_ requestable
  obtain ⟨outcome, result⟩ := exists_run_cheapest fit short narrow ranged
  have fits : ∀ cost ∈ (List.range block.cols).map (ColumnCosts.ofColumn ⟨block, false⟩ normal),
      cost.isCompressible = true → cost.profile.overflows cost.best.encoding = false := by
    intro cost member compressible
    obtain ⟨col, _, rfl⟩ := List.mem_map.mp member
    exact ColumnCosts.overflows_ofColumn short compressible
  have ends := ends_of_result result
  cases outcome with
  | compressed matrix =>
    refine ⟨normal, _, .packed matrix, _, ranged, ColumnCosts.ofSource_eq source normal, fits,
      compressWith_of_compressed ranged serves result, ?_⟩
    rw [ends.describes.1]
    intro text failed
    cases failed
  | aborted reason =>
    refine ⟨normal, _, .plain block, (run block normal .cheapest).stats.withAbort reason, ranged,
      ColumnCosts.ofSource_eq source normal, fits, ?_, fun text failed => ?_⟩
    · rw [compress, compressWith_of_ok ranged serves result, Attempt.report, result]
    · exact ends.abort_ne_failed text (Option.some.inj failed)

/-- Only offset lists are enabled, and the first column takes 82 bytes in them; a copy takes 100. -/
theorem exists_compress_twoTuples :
    (ColumnCosts.ofColumn ⟨twoTuples, false⟩ { encodings := [.ole] } 0).best = ⟨.ole, 82⟩ ∧
      (ColumnCosts.ofColumn ⟨twoTuples, false⟩ { encodings := [.ole] } 0).profile.overflows .ole =
        false ∧
      ∃ matrix stats, compress twoTuples { encodings := [.ole] } = .ok (matrix, stats) := by
  have valid : twoTuples.validate = .ok () := by decide +kernel
  have rows : Bitmap.tupleRows [0] ⟨twoTuples, false⟩ =
      [⟨0, [⟨1⟩]⟩, ⟨1, [⟨1⟩]⟩, ⟨2, [⟨2⟩]⟩] := by decide +kernel
  have grouped : Bitmap.ofTupleRows 1 (Bitmap.tupleRows [0] ⟨twoTuples, false⟩) =
      ⟨1, #[⟨1⟩, ⟨2⟩], [[0, 1], [2]]⟩ := by
    rw [rows]
    simp [Bitmap.ofTupleRows, Grouping.add, Grouping.start]
  have best : (ColumnCosts.ofColumn ⟨twoTuples, false⟩ { encodings := [.ole] } 0).best =
      ⟨.ole, 82⟩ := by
    simp only [ColumnCosts.ofColumn, CostProfile.ofColumns, List.length_singleton, grouped]
    decide +kernel
  have kept : ({ encodings := [.ole] } : Settings).normalize = .ok { encodings := [.ole] } := by
    decide +kernel
  obtain ⟨normal, costs, matrix, stats, ranged, sourced, fits, made, _⟩ :=
    @exists_compress twoTuples { encodings := [.ole] } valid (by decide) (by decide) (by decide)
      (by decide) .caller (Threads.serves_caller 1)
  obtain rfl := Except.ok.inj (kept.symm.trans ranged)
  obtain rfl := Except.ok.inj ((ColumnCosts.ofSource_eq
    ⟨Block.wellFormed_of_validate valid, by decide, by decide⟩ _).symm.trans sourced)
  have first := fits _ (List.mem_map_of_mem (List.mem_range.mpr (show 0 < 2 by decide))) (by
    rw [ColumnCosts.isCompressible, best, ColumnCosts.uncompressedSize_ofColumn]
    rfl)
  rw [best] at first
  exact ⟨best, first, matrix, stats, made⟩

end Compressor

end PackedMatrix
