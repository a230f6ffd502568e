import PackedMatrix.Proofs.Attempts
import PackedMatrix.Proofs.BuiltGroups

namespace PackedMatrix

namespace ColumnPlan

theorem claim_eq_ok_iff {cols group : Nat} {owners entered : Array (Option Nat)}
    {columns : List Nat} : claim cols group owners columns = .ok entered ↔
      Packed.claim cols group owners columns = .ok entered := by
  induction columns generalizing owners with
  | nil =>
    rw [claim, Packed.claim]
    exact ⟨fun h => by cases h; rfl, fun h => by cases h; rfl⟩
  | cons first rest ih =>
    rw [claim, Packed.claim]
    cases owners[first]? with
    | none => simp
    | some owner =>
      cases owner with
      | none => exact ih
      | some other => simp

section Check

variable {cols group : Nat} {settings : Settings} {owners : Array (Option Nat)}
  {accepted : List ColumnPlan}

/-- What the first of accepted plans has passed. -/
theorem checkFrom_cons_eq_ok {plan : ColumnPlan} {rest : List ColumnPlan}
    (h : checkFrom cols settings group owners (plan :: rest) = .ok accepted) :
    plan.columns ≠ [] ∧ settings.allows plan.encoding = true ∧ ∃ claimed others,
      Packed.claim cols group owners plan.columns.mergeSort = .ok claimed ∧
      checkFrom cols settings (group + 1) claimed rest = .ok others ∧
      accepted = { plan with columns := plan.columns.mergeSort } :: others := by
  unfold checkFrom at h
  split at h
  next => cases h
  next nonempty =>
    split at h
    next => cases h
    next allowed =>
      simp only at h
      split at h
      next => cases h
      next claimed taken =>
        split at h
        next => cases h
        next others checked =>
          cases h
          exact ⟨fun none => nonempty (List.isEmpty_iff.mpr none), by simpa using allowed,
            claimed, others, claim_eq_ok_iff.mp taken, checked, rfl⟩

/-- Accepted plans have increasing columns that were free, none of which is in two of them. -/
theorem columns_of_checkFrom {plans : List ColumnPlan}
    (h : checkFrom cols settings group owners plans = .ok accepted) :
    Packed.Unclaimed owners (accepted.flatMap columns) ∧
      ∀ plan ∈ accepted, plan.columns.Pairwise (· < ·) := by
  induction plans generalizing group owners accepted with
  | nil =>
    cases h
    exact ⟨⟨.nil, by simp⟩, by simp⟩
  | cons plan rest ih =>
    obtain ⟨_, _, claimed, others, taken, checked, rfl⟩ := checkFrom_cons_eq_ok h
    obtain ⟨later, sorted⟩ := ih checked
    rw [List.flatMap_cons]
    refine ⟨(Packed.unclaimed_append_iff taken).mpr later, fun other member => ?_⟩
    rcases List.mem_cons.mp member with rfl | behind
    · exact Increasing.mergeSort (Packed.claim_eq_ok taken).1
    · exact sorted other behind

end Check

theorem columns_of_validate {plans accepted : List ColumnPlan} {cols : Nat} {settings : Settings}
    (h : validate plans cols settings = .ok accepted) : (accepted.flatMap columns).Nodup ∧
      ∀ plan ∈ accepted, plan.columns.Pairwise (· < ·) ∧ ∀ col ∈ plan.columns, col < cols := by
  obtain ⟨⟨distinct, free⟩, sorted⟩ := columns_of_checkFrom (mapError_eq_ok h)
  refine ⟨distinct, fun plan member => ⟨sorted plan member, fun col inPlan => ?_⟩⟩
  have here := free col (List.mem_flatMap.mpr ⟨plan, member, inPlan⟩)
  simpa using (Array.getElem?_eq_some_iff.mp here).1

end ColumnPlan

namespace Group

variable {source : Source} {settings : Settings} {plan : ColumnPlan} {plans : List ColumnPlan}
  {groups : List Group}

theorem columns_ofPlan (h : ofPlan source settings plan = .ok groups) :
    (groups.flatMap columns).Perm plan.columns := by
  by_cases splits : Splits source plan
  · have parts := List.filter_append_perm source.isColumnEmpty plan.columns
    rw [ofPlan_of_splits splits, splitEmpty] at h
    split at h
    next none_ =>
      cases h
      rw [List.isEmpty_iff.mp none_, List.append_nil] at parts
      simpa using parts
    next =>
      obtain ⟨second, run, h⟩ := bind_eq_ok h
      cases h
      simpa [(fields_ofColumns run).1] using parts
  · rw [ofPlan_of_not_splits splits] at h
    obtain ⟨group, run, h⟩ := bind_eq_ok h
    cases h
    simp [(fields_ofColumns run).1]

theorem columns_ofPlans (h : ofPlans source settings plans = .ok groups) :
    (groups.flatMap columns).Perm (plans.flatMap ColumnPlan.columns) := by
  obtain ⟨parts, made, same⟩ := bind_eq_ok h
  cases same
  clear h
  rw [List.flatMap_id]
  induction plans generalizing parts with
  | nil =>
    cases made
    exact .refl _
  | cons plan rest ih =>
    obtain ⟨first, others, run, later, rfl⟩ := mapM_cons_eq_ok made
    rw [List.flatten_cons, List.flatMap_append, List.flatMap_cons]
    exact (columns_ofPlan run).append (ih _ later)

theorem accepted_ofPlan (valid : source.WellFormed) (nonempty : plan.columns ≠ [])
    (sorted : plan.columns.Pairwise (· < ·)) (h : ofPlan source settings plan = .ok groups) :
    ∀ group ∈ groups, group.Accepted ∧ group.rows = source.rows := by
  by_cases splits : Splits source plan
  · have first : (⟨plan.columns.filter source.isColumnEmpty, source.rows, .empty⟩ :
        Group).Accepted := accepted_empty splits.empty (sorted.filter _)
    rw [ofPlan_of_splits splits, splitEmpty] at h
    split at h
    next =>
      cases h
      simpa using first
    next some_ =>
      obtain ⟨second, run, h⟩ := bind_eq_ok h
      cases h
      have nonempty : plan.columns.filter (!source.isColumnEmpty ·) ≠ [] :=
        fun none_ => some_ (List.isEmpty_iff.mpr none_)
      have accepted := accepted_ofColumns valid nonempty run
      simpa [(fields_ofColumns run).2] using And.intro first accepted
  · rw [ofPlan_of_not_splits splits] at h
    obtain ⟨group, run, h⟩ := bind_eq_ok h
    cases h
    have accepted := accepted_ofColumns valid nonempty run
    simpa [(fields_ofColumns run).2] using accepted

end Group

namespace Compressor

variable {block : Block} {groups : List Group}

theorem leftover_eq (cols : Nat) (groups : List Group) : leftover cols groups =
    (List.range cols).filter fun col => !(groups.flatMap Group.columns).contains col := by
  unfold leftover
  simp only
  rw [SparseShape.zipIdx_mark, List.filter_map, List.map_map]
  exact List.map_id _

theorem increasing_leftover (cols : Nat) (groups : List Group) :
    (leftover cols groups).Pairwise (· < ·) := by
  rw [leftover_eq]
  exact List.pairwise_lt_range.filter _

theorem lt_of_mem_leftover {cols col : Nat} (member : col ∈ leftover cols groups) : col < cols := by
  rw [leftover_eq] at member
  exact List.mem_range.mp (List.mem_filter.mp member).1

/-- With the columns that are left, groups with columns of their own have every column. -/
theorem columns_append_leftover {cols : Nat} (distinct : (groups.flatMap Group.columns).Nodup)
    (inside : ∀ col ∈ groups.flatMap Group.columns, col < cols) :
    (groups.flatMap Group.columns ++ leftover cols groups).Perm (List.range cols) := by
  have parts := List.filter_append_perm (groups.flatMap Group.columns).contains (List.range cols)
  have taken : ((List.range cols).filter (groups.flatMap Group.columns).contains).Perm
      (groups.flatMap Group.columns) := by
    refine (List.perm_ext_iff_of_nodup (List.nodup_range.filter _) distinct).mpr fun col => ?_
    rw [List.mem_filter, List.mem_range, List.contains_iff_mem]
    exact ⟨fun both => both.2, fun member => ⟨inside col member, member⟩⟩
  rw [leftover_eq]
  exact (taken.symm.append_right _).trans parts

theorem exists_assemble (valid : block.WellFormed) (short : block.rows ≤ maxIndex)
    (narrow : block.cols ≤ maxIndex)
    (fit : ∀ group ∈ groups, group.Accepted ∧ group.rows = block.rows)
    (distinct : (groups.flatMap Group.columns).Nodup)
    (inside : ∀ col ∈ groups.flatMap Group.columns, col < block.cols) :
    ∃ matrix, assemble block groups = .ok matrix := by
  have columns := columns_append_leftover distinct inside
  have passes : ∀ group ∈ groups, group.validate = .ok () ∧ group.rows = block.rows :=
    fun group member => ⟨Group.validate_eq_ok_iff.mpr (fit group member).1, (fit group member).2⟩
  unfold assemble
  simp only
  split
  next none_ =>
    rw [List.isEmpty_iff.mp none_, List.append_nil] at columns
    exact Packed.exists_ofGroups passes columns
  next some_ =>
    have source : (⟨block, false⟩ : Source).WellFormed := ⟨valid, short, narrow⟩
    have nonempty : leftover block.cols groups ≠ [] :=
      fun none_ => some_ (List.isEmpty_iff.mpr none_)
    have sorted := increasing_leftover block.cols groups
    obtain ⟨copy, copied, stored, rows, cols, _⟩ :=
      Block.selectColumns_eq_ok source nonempty sorted fun _ => lt_of_mem_leftover
    have accepted := Group.accepted_uncompressed nonempty sorted stored cols
    obtain ⟨packed, made⟩ : ∃ packed, Packed.ofGroups block.rows block.cols
        (groups ++ [⟨leftover block.cols groups, copy.rows, .uncompressed copy⟩]) = .ok packed := by
      refine Packed.exists_ofGroups (fun group member => ?_) (by simpa using columns)
      rcases List.mem_append.mp member with built | last
      · exact passes group built
      · obtain rfl := List.mem_singleton.mp last
        exact ⟨Group.validate_eq_ok_iff.mpr accepted, rows⟩
    exact ⟨packed, by rw [copied]; exact made⟩

end Compressor

end PackedMatrix
