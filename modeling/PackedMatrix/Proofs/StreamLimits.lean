import PackedMatrix.Proofs.BuiltGroups
import PackedMatrix.Proofs.PlanSizes

namespace PackedMatrix

namespace CostProfile

/-- The group that is asked for has streams, and these take more words than pointers can tell. -/
def overflows (profile : CostProfile) (encoding : Encoding) : Bool :=
  !profile.isEmpty && !profile.isConst &&
    match encoding with
    | .ole => decide (profile.offsetWords > maxIndex)
    | .rle => decide (profile.runPairs * 2 > maxIndex)
    | _ => false

theorem overflows_of_isEmpty {profile : CostProfile} (empty : profile.isEmpty = true)
    (encoding : Encoding) : profile.overflows encoding = false := by
  simp [overflows, empty]

end CostProfile

namespace ColumnPlan

/-- The streams of the group that a plan asks for would be too long. Columns that are split off as
empty add no words, so it does not matter whether the plan is split. -/
def overflows (source : Source) (blockSize : Nat) (plan : ColumnPlan) : Bool :=
  (CostProfile.ofColumns source plan.columns blockSize).overflows plan.encoding

end ColumnPlan

namespace Group

section Bitmap

variable {source : Source} {columns : List Nat} {bitmap : Bitmap} {settings : Settings}
  {encoding : Encoding} (valid : source.WellFormed) (nonempty : columns ≠ [])
  (sorted : columns.Pairwise (· < ·)) (inside : ∀ col ∈ columns, col < source.cols)
  (fit : bitmap.WellFormed columns.length source.rows)
  (requestable : encoding.isRequestable = true) (positive : 0 < settings.offsetBlockSize)
  (most : settings.offsetBlockSize ≤ Settings.maxOffsetBlockSize)

include valid nonempty sorted inside fit requestable positive most

theorem exists_encodeAs_iff (filled : bitmap.lists ≠ [])
    (apart : ¬ (bitmap.tuples = 1 ∧ (bitmap.list 0).length = source.rows)) :
    (∃ body, encodeAs encoding columns source.rows bitmap settings source = .ok body) ↔
      (CostProfile.ofBitmap bitmap source.rows settings.offsetBlockSize).overflows encoding =
        false := by
  have some_ : (CostProfile.ofBitmap bitmap source.rows settings.offsetBlockSize).isEmpty =
      false := by
    rw [← Bool.not_eq_true, CostProfile.isEmpty_ofBitmap]
    exact filled
  have several : (CostProfile.ofBitmap bitmap source.rows settings.offsetBlockSize).isConst =
      false := by
    rw [← Bool.not_eq_true, CostProfile.isConst_ofBitmap fit]
    exact apart
  cases encoding with
  | empty => cases requestable
  | const => cases requestable
  | ddc =>
    rw [encodeAs, Dictionary.count_eq (fit.wide nonempty)]
    exact iff_of_true ⟨_, rfl⟩ (by simp [CostProfile.overflows])
  | ole =>
    have limit : (∃ offsets, OffsetStreams.ofBitmap bitmap settings.offsetBlockSize =
        .ok offsets) ↔ _ := OffsetStreams.exists_ofBitmap_iff positive most
    simp only [CostProfile.overflows, some_, several, Bool.not_false, Bool.true_and,
      decide_eq_false_iff_not, Nat.not_lt]
    rw [CostProfile.ofBitmap, ← limit]
    exact exists_bind_pure_iff
  | rle =>
    have limit : (∃ runs, RunStreams.ofBitmap bitmap = .ok runs) ↔ _ :=
      RunStreams.exists_ofBitmap_iff
    simp only [CostProfile.overflows, some_, several, Bool.not_false, Bool.true_and,
      decide_eq_false_iff_not, Nat.not_lt]
    rw [CostProfile.ofBitmap, Nat.mul_comm, ← limit]
    exact exists_bind_pure_iff
  | sdc =>
    have body := SparseShape.exists_encode fit (List.length_pos_iff.mpr nonempty) filled
    exact iff_of_true body (by simp [CostProfile.overflows])
  | uncompressed =>
    obtain ⟨copy, copied, _⟩ := Block.selectColumns_eq_ok valid nonempty sorted inside
    refine iff_of_true ⟨.uncompressed copy, ?_⟩ (by simp [CostProfile.overflows])
    rw [encodeAs, if_neg (fun differs => differs rfl), copied]
    rfl

/-- A group is built for the bitmap of its columns unless its streams are too long. -/
theorem exists_ofBitmap_iff (shown : bitmap.Shows source.rows (source.tuple columns)) :
    (∃ group, ofBitmap columns source.rows bitmap encoding settings source = .ok group) ↔
      (CostProfile.ofBitmap bitmap source.rows settings.offsetBlockSize).overflows encoding =
        false := by
  rw [ofBitmap_of_validate fit.validate, exists_mapError_iff]
  unfold encode
  by_cases filled : bitmap.lists = []
  · rw [if_pos (List.isEmpty_iff.mpr filled)]
    exact iff_of_true ⟨_, rfl⟩
      (CostProfile.overflows_of_isEmpty ((CostProfile.isEmpty_ofBitmap _ _ _).mpr filled) encoding)
  · rw [if_neg fun none_ => filled (List.isEmpty_iff.mp none_)]
    by_cases full : bitmap.tuples = 1 ∧ (bitmap.list 0).length = source.rows
    · have count := tuples_ofBitmap fit nonempty
      have const := (CostProfile.isConst_ofBitmap fit settings.offsetBlockSize).mpr full
      have made : Group.const columns source.rows (.ofBitmap bitmap) =
          .ok ⟨columns, source.rows, .const (.ofBitmap bitmap)⟩ := by
        rw [Group.const, Dictionary.count_eq (fit.wide nonempty), count, full.1]
        rfl
      rw [if_pos full, made]
      exact iff_of_true ⟨_, rfl⟩ (by simp [CostProfile.overflows, const])
    · rw [if_neg full]
      obtain ⟨i, largest⟩ := Bitmap.exists_isLargest filled
      have order := CostProfile.ofBitmap_sortByFrequency fit largest shown settings.offsetBlockSize
      rw [exists_bind_pure_iff]
      cases settings.sortByFrequency with
      | false =>
        exact exists_encodeAs_iff valid nonempty sorted inside fit requestable positive most filled
          full
      | true =>
        have again := exists_encodeAs_iff valid nonempty sorted inside fit.sortByFrequency
          requestable positive most (Bitmap.sortByFrequency_ne_nil filled)
          (fun single => full ((fit.single_sortByFrequency filled).mp single))
        rw [order] at again
        exact again

end Bitmap

section Plan

variable {source : Source} {settings : Settings} (valid : source.WellFormed)
  (positive : 0 < settings.offsetBlockSize)
  (most : settings.offsetBlockSize ≤ Settings.maxOffsetBlockSize)

include valid positive most

theorem exists_ofColumns_iff {columns : List Nat} {encoding : Encoding} (nonempty : columns ≠ [])
    (sorted : columns.Pairwise (· < ·)) (inside : ∀ col ∈ columns, col < source.cols)
    (requestable : encoding.isRequestable = true) :
    (∃ group, ofColumns source columns encoding settings = .ok group) ↔
      (CostProfile.ofColumns source columns settings.offsetBlockSize).overflows encoding =
        false := by
  have extracted := Bitmap.extract_of_inside valid sorted inside
  obtain ⟨_, _, fit, shown⟩ := Bitmap.extract_eq_ok valid extracted
  rw [ofColumns, extracted]
  exact exists_ofBitmap_iff valid nonempty sorted inside fit requestable positive most shown

/-- The groups of a plan are built unless its streams are too long. -/
theorem exists_ofPlan_iff {plan : ColumnPlan} (nonempty : plan.columns ≠ [])
    (sorted : plan.columns.Pairwise (· < ·)) (inside : ∀ col ∈ plan.columns, col < source.cols)
    (requestable : plan.encoding.isRequestable = true) :
    (∃ groups, ofPlan source settings plan = .ok groups) ↔
      plan.overflows source settings.offsetBlockSize = false := by
  by_cases splits : Splits source plan
  · have others := CostProfile.ofColumns_others valid sorted inside splits settings.offsetBlockSize
    have same : plan.overflows source settings.offsetBlockSize =
        (CostProfile.ofColumns source (plan.columns.filter (!source.isColumnEmpty ·))
          settings.offsetBlockSize).overflows plan.encoding := by
      rw [others]
      rfl
    rw [ofPlan_of_splits splits, splitEmpty, same]
    by_cases none_ : plan.columns.filter (!source.isColumnEmpty ·) = []
    · have empty : (CostProfile.ofColumns source [] settings.offsetBlockSize).isEmpty = true := by
        rw [CostProfile.isEmpty, CostProfile.tuples_ofColumns_nil valid]
        rfl
      simp only [none_, List.isEmpty_nil, ↓reduceIte]
      exact iff_of_true ⟨_, rfl⟩ (CostProfile.overflows_of_isEmpty empty _)
    · simp only [if_neg fun empty => none_ (List.isEmpty_iff.mp empty)]
      rw [exists_bind_pure_iff]
      exact exists_ofColumns_iff valid positive most none_ (sorted.filter _)
        (fun col member => inside col (List.mem_filter.mp member).1) requestable
  · rw [ofPlan_of_not_splits splits, exists_bind_pure_iff]
    exact exists_ofColumns_iff valid positive most nonempty sorted inside requestable

theorem exists_ofPlans_iff {plans : List ColumnPlan}
    (planned : ∀ plan ∈ plans, plan.columns ≠ [] ∧ plan.columns.Pairwise (· < ·) ∧
      (∀ col ∈ plan.columns, col < source.cols) ∧ plan.encoding.isRequestable = true) :
    (∃ groups, ofPlans source settings plans = .ok groups) ↔
      ∀ plan ∈ plans, plan.overflows source settings.offsetBlockSize = false := by
  rw [ofPlans, exists_bind_pure_iff, Pool.collect_caller, exists_mapM_iff]
  refine forall₂_congr fun plan member => ?_
  obtain ⟨nonempty, sorted, inside, requestable⟩ := planned plan member
  exact exists_ofPlan_iff valid positive most nonempty sorted inside requestable

end Plan

end Group

end PackedMatrix
