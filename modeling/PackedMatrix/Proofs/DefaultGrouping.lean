import PackedMatrix.Proofs.Orientation
import PackedMatrix.Proofs.PlannedAttempts

namespace PackedMatrix

namespace ColumnPlan

variable {cols group : Nat} {settings : Settings} {owners : Array (Option Nat)}
  {plans : List ColumnPlan}

theorem exists_checkFrom
    (each : ∀ plan ∈ plans, plan.columns ≠ [] ∧ settings.allows plan.encoding = true)
    (unclaimed : Packed.Unclaimed owners (plans.flatMap columns)) :
    ∃ accepted, checkFrom cols settings group owners plans = .ok accepted := by
  induction plans generalizing group owners with
  | nil => exact ⟨[], rfl⟩
  | cons plan rest ih =>
    obtain ⟨nonempty, enabled⟩ := each plan (by simp)
    have order : (plan.columns.mergeSort ++ rest.flatMap columns).Perm
        ((plan :: rest).flatMap columns) := (List.mergeSort_perm _ _).append_right _
    obtain ⟨claimed, taken, later⟩ := Packed.exists_claim_append cols group
      ⟨order.nodup_iff.mpr unclaimed.distinct,
        fun col member => unclaimed.free col (order.mem_iff.mp member)⟩
    obtain ⟨accepted, checked⟩ : ∃ accepted,
        checkFrom cols settings (group + 1) claimed rest = .ok accepted :=
      ih (fun other member => each other (List.mem_cons_of_mem _ member)) later
    have filled : ¬ plan.columns.isEmpty = true := fun none_ => nonempty (List.isEmpty_iff.mp none_)
    have allowed : ¬ (!settings.allows plan.encoding) = true := by simp [enabled]
    refine ⟨plan.sorted :: accepted, ?_⟩
    rw [checkFrom, if_neg filled, if_neg allowed]
    simp only [claim_eq_ok_iff.mpr taken, checked]
    rfl

theorem validate_eq_ok
    (each : ∀ plan ∈ plans, plan.columns ≠ [] ∧ settings.allows plan.encoding = true)
    (distinct : (plans.flatMap columns).Nodup)
    (inside : ∀ col ∈ plans.flatMap columns, col < cols) :
    validate plans cols settings = .ok (plans.map sorted) := by
  have free : ∀ col ∈ plans.flatMap columns,
      (Array.replicate cols (none : Option Nat))[col]? = some none := by
    intro col member
    rw [Array.getElem?_replicate, if_pos (inside col member)]
  obtain ⟨accepted, checked⟩ : ∃ accepted, checkFrom cols settings 0 _ plans = .ok accepted :=
    exists_checkFrom each ⟨distinct, free⟩
  rw [validate, checked, (checkFrom_eq_ok checked).1]
  rfl

end ColumnPlan

namespace ColumnCosts

/-- Folding keeps a cost that is no greater than any other. -/
theorem foldl_smaller (known : EncodingCost) (costs : List EncodingCost) :
    ∃ best ∈ known :: costs, costs.foldl smaller (some known) = some best ∧
      ∀ cost ∈ known :: costs, best.size ≤ cost.size := by
  induction costs generalizing known with
  | nil => exact ⟨known, by simp, rfl, by simp⟩
  | cons cost rest ih =>
    rw [List.foldl_cons, smaller]
    split
    next less =>
      obtain ⟨best, member, found, least⟩ := ih known
      obtain ⟨first, others⟩ := List.forall_mem_cons.mp least
      refine ⟨best, ?_, found, ?_⟩
      · rcases List.mem_cons.mp member with rfl | later
        · simp
        · simp [later]
      · simp only [List.forall_mem_cons]
        exact ⟨first, Nat.le_trans first less, others⟩
    next more =>
      obtain ⟨best, member, found, least⟩ := ih cost
      obtain ⟨first, others⟩ := List.forall_mem_cons.mp least
      refine ⟨best, List.mem_cons_of_mem _ member, found, ?_⟩
      simp only [List.forall_mem_cons]
      exact ⟨by omega, first, others⟩

section Profile

variable {columns : List Nat} {profile : CostProfile} {settings : Settings} {encoding : Encoding}
  {size : Nat}

theorem mem_sizes_iff {cost : EncodingCost} : cost ∈ (ofProfile columns profile settings).sizes ↔
    settings.allows cost.encoding = true ∧ profile.sizeOf cost.encoding = some cost.size := by
  have every : ∀ encoding, encoding ∈ Encoding.all := by
    intro encoding
    cases encoding <;> decide
  obtain ⟨encoding, size⟩ := cost
  simp only [ofProfile, List.mem_filterMap, Settings.orderedEncodings, List.mem_filter, every,
    true_and, Option.map_eq_some_iff, EncodingCost.mk.injEq, Settings.allows]
  constructor
  · rintro ⟨_, enabled, _, sized, rfl, rfl⟩
    exact ⟨enabled, sized⟩
  · rintro ⟨enabled, sized⟩
    exact ⟨encoding, enabled, size, sized, rfl, rfl⟩

/-- The best cost is the least in an enabled encoding, unless none is possible. -/
theorem best_ofProfile (columns : List Nat) (profile : CostProfile) (settings : Settings) :
    ((ofProfile columns profile settings).best = ⟨.uncompressed, profile.uncompressedSize⟩ ∧
      ∀ encoding, settings.allows encoding = true → profile.sizeOf encoding = none) ∨
    (ofProfile columns profile settings).best ∈ (ofProfile columns profile settings).sizes ∧
      ∀ cost ∈ (ofProfile columns profile settings).sizes,
        (ofProfile columns profile settings).best.size ≤ cost.size := by
  have folded : (ofProfile columns profile settings).best =
      ((ofProfile columns profile settings).sizes.foldl smaller none).getD
        ⟨.uncompressed, profile.uncompressedSize⟩ := rfl
  cases listed : (ofProfile columns profile settings).sizes with
  | nil =>
    refine .inl ⟨by rw [folded, listed]; rfl, fun encoding enabled => ?_⟩
    by_contra some_
    obtain ⟨size, sized⟩ := Option.ne_none_iff_exists'.mp some_
    have member : (⟨encoding, size⟩ : EncodingCost) ∈ (ofProfile columns profile settings).sizes :=
      mem_sizes_iff.mpr ⟨enabled, sized⟩
    rw [listed] at member
    cases member
  | cons first rest =>
    obtain ⟨best, member, found, least⟩ := foldl_smaller first rest
    rw [listed, List.foldl_cons, smaller, found] at folded
    rw [folded]
    exact .inr ⟨member, least⟩

theorem best_le (enabled : settings.allows encoding = true)
    (sized : profile.sizeOf encoding = some size) :
    (ofProfile columns profile settings).best.size ≤ size := by
  rcases best_ofProfile columns profile settings with ⟨_, none_⟩ | ⟨_, least⟩
  · cases sized.symm.trans (none_ encoding enabled)
  · exact least ⟨encoding, size⟩ (mem_sizes_iff.mpr ⟨enabled, sized⟩)

/-- The best encoding of compressible columns is enabled and takes its size. -/
theorem best_of_isCompressible
    (worthwhile : (ofProfile columns profile settings).isCompressible = true) :
    settings.allows (ofProfile columns profile settings).best.encoding = true ∧
      profile.sizeOf (ofProfile columns profile settings).best.encoding =
        some (ofProfile columns profile settings).best.size := by
  rcases best_ofProfile columns profile settings with ⟨copied, _⟩ | ⟨member, _⟩
  · have less : (ofProfile columns profile settings).best.size < profile.uncompressedSize :=
      of_decide_eq_true worthwhile
    rw [copied] at less
    exact absurd less (Nat.lt_irrefl _)
  · exact mem_sizes_iff.mp member

end Profile

/-- The costs of one column of a source. -/
def ofColumn (source : Source) (settings : Settings) (col : Nat) : ColumnCosts :=
  ofProfile [col] (.ofColumns source [col] settings.offsetBlockSize) settings

/-- The columns that take less space encoded than copied. -/
def worthwhile (source : Source) (settings : Settings) : List Nat :=
  (List.range source.cols).filter fun col => (ofColumn source settings col).isCompressible

/-- A column on its own, in its cheapest encoding. -/
def cheapestPlan (source : Source) (settings : Settings) (col : Nat) : ColumnPlan :=
  ⟨[col], (ofColumn source settings col).best.encoding⟩

variable {source : Source} {settings : Settings} {col : Nat}

theorem mem_worthwhile_iff : col ∈ worthwhile source settings ↔
    col < source.cols ∧ (ofColumn source settings col).isCompressible = true := by
  rw [worthwhile, List.mem_filter, List.mem_range]

theorem ofColumns_single (valid : source.WellFormed) (settings : Settings)
    (inside : col < source.cols) :
    ofColumns source settings [col] = .ok (ofColumn source settings col) := by
  have extracted := Bitmap.extract_of_inside valid (List.pairwise_singleton _ col)
    (by simpa using inside)
  rw [ofColumns, extracted]
  rfl

theorem ofSource_eq (valid : source.WellFormed) (settings : Settings) :
    ofSource source settings =
      .ok ((List.range source.cols).map (ofColumn source settings)) :=
  mapM_eq_ok fun _ member => ofColumns_single valid settings (List.mem_range.mp member)

theorem cheapestPlans_eq (source : Source) (settings : Settings) :
    cheapestPlans ((List.range source.cols).map (ofColumn source settings)) =
      (worthwhile source settings).map (cheapestPlan source settings) := by
  rw [cheapestPlans, List.filter_map, List.map_map]
  rfl

/-- One column takes less space dense than sparse. -/
theorem uncompressedSize_ofColumn (source : Source) (settings : Settings) (col : Nat) :
    (ofColumn source settings col).uncompressedSize = 68 + 8 * source.rows := by
  have taken : (ofColumn source settings col).uncompressedSize =
      16 + 1 * 4 + (48 + min (source.rows * 1 * 8)
        ((ofColumn source settings col).profile.nonZeros * 12 + (source.rows + 1) * 8)) := rfl
  omega

end ColumnCosts

theorem CostProfile.ofColumns_congr {a b : Source} {columns : List Nat} (alike : Source.Alike a b)
    (sorted : columns.Pairwise (· < ·)) (inside : ∀ col ∈ columns, col < a.cols) (blockSize : Nat) :
    ofColumns a columns blockSize = ofColumns b columns blockSize := by
  rw [ofColumns, ofColumns, Bitmap.tupleRows_eq alike.valid sorted inside,
    Bitmap.tupleRows_eq alike.valid' sorted (alike.cols ▸ inside), alike.shownFrom_eq inside,
    alike.rows]

namespace Compressor

section Plans

variable {source : Source} {settings : Settings} {plans : List ColumnPlan}

/-- The plans of the default grouping are accepted as they are. -/
theorem group_cheapest (source : Source) (settings : Settings) :
    group ((List.range source.cols).map (ColumnCosts.ofColumn source settings)) source.cols settings
        .cheapest =
      .ok ((ColumnCosts.worthwhile source settings).map
        (ColumnCosts.cheapestPlan source settings)) := by
  have columns : ((ColumnCosts.worthwhile source settings).map
      (ColumnCosts.cheapestPlan source settings)).flatMap ColumnPlan.columns =
        ColumnCosts.worthwhile source settings := by
    rw [List.flatMap_map]
    exact List.flatMap_singleton' _
  have sorted : ((ColumnCosts.worthwhile source settings).map
      (ColumnCosts.cheapestPlan source settings)).map ColumnPlan.sorted =
        (ColumnCosts.worthwhile source settings).map
          (ColumnCosts.cheapestPlan source settings) := by
    rw [List.map_map]
    refine List.map_congr_left fun col _ => ?_
    exact congrArg (ColumnPlan.mk · _) (List.mergeSort_singleton col)
  have accepted : ColumnPlan.validate ((ColumnCosts.worthwhile source settings).map
      (ColumnCosts.cheapestPlan source settings)) source.cols settings =
        .ok (((ColumnCosts.worthwhile source settings).map
          (ColumnCosts.cheapestPlan source settings)).map ColumnPlan.sorted) := by
    refine ColumnPlan.validate_eq_ok ?_ ?_ ?_
    · intro plan member
      obtain ⟨col, listed, rfl⟩ := List.mem_map.mp member
      obtain ⟨_, compressible⟩ := ColumnCosts.mem_worthwhile_iff.mp listed
      exact ⟨List.cons_ne_nil _ _, (ColumnCosts.best_of_isCompressible compressible).1⟩
    · rw [columns]
      exact List.nodup_range.filter _
    · rw [columns]
      exact fun col member => (ColumnCosts.mem_worthwhile_iff.mp member).1
  have planned : ∀ costs, group costs source.cols settings .cheapest =
      ColumnPlan.validate (ColumnCosts.cheapestPlans costs) source.cols settings := fun _ => rfl
  rw [planned, ColumnCosts.cheapestPlans_eq, accepted, sorted]

end Plans

variable {block : Block} {settings : Settings} {plans : List ColumnPlan}

theorem classify_cheapest_eq (valid : Source.WellFormed ⟨block, false⟩) (settings : Settings) :
    classify ⟨block, false⟩ settings .cheapest =
      .ok (some ((List.range block.cols).map
        (ColumnCosts.ofColumn ⟨block, false⟩ settings))) := by
  rw [classify_cheapest, ColumnCosts.ofSource_eq valid]
  rfl

/-- The plans that an attempt with the default grouping comes to. -/
theorem Reached.plans_eq (valid : Source.WellFormed ⟨block, false⟩)
    (reached : Reached block settings .cheapest plans) :
    plans = (ColumnCosts.worthwhile ⟨block, false⟩ settings).map
      (ColumnCosts.cheapestPlan ⟨block, false⟩ settings) := by
  obtain ⟨_, classified, grouped⟩ := reached.grouped
  cases (classify_cheapest_eq valid settings).symm.trans classified.classified
  exact (Except.ok.inj ((group_cheapest ⟨block, false⟩ settings).symm.trans grouped)).symm

end Compressor

end PackedMatrix
