import PackedMatrix.Proofs.DefaultGrouping

namespace PackedMatrix

namespace ColumnPlan

/-- Plans that can be carried out together. -/
structure Feasible (plans : List ColumnPlan) (cols : Nat) (settings : Settings) : Prop where
  filled : ∀ plan ∈ plans, plan.columns ≠ []
  enabled : ∀ plan ∈ plans, plan.encoding ∈ settings.encodings
  inside : ∀ plan ∈ plans, ∀ col ∈ plan.columns, col < cols
  unrepeated : ∀ plan ∈ plans, plan.columns.Nodup
  apart : plans.Pairwise fun a b => ∀ col ∈ a.columns, col ∉ b.columns

/-- The same encoding for the same columns, named in any order. -/
def Reordered (plan other : ColumnPlan) : Prop :=
  other.encoding = plan.encoding ∧ other.columns.Perm plan.columns

theorem allows_iff {settings : Settings} {encoding : Encoding} :
    settings.allows encoding = true ↔ encoding ∈ settings.encodings := List.contains_iff_mem

theorem reordered_sorted (plan : ColumnPlan) : plan.Reordered plan.sorted :=
  ⟨rfl, List.mergeSort_perm _ _⟩

variable {plans others : List ColumnPlan} {cols : Nat} {settings : Settings}

theorem perm_of_reordered (same : List.Forall₂ Reordered plans others) :
    (others.flatMap columns).Perm (plans.flatMap columns) := by
  induction same with
  | nil => exact .refl _
  | cons first _ ih =>
    rw [List.flatMap_cons, List.flatMap_cons]
    exact first.2.append ih

theorem forall₂_sorted (plans : List ColumnPlan) :
    List.Forall₂ Reordered plans (plans.map sorted) := by
  rw [List.forall₂_map_right_iff, List.forall₂_same]
  exact fun plan _ => plan.reordered_sorted

/-- The check puts columns in order before it looks at them. -/
theorem checkFrom_congr (same : List.Forall₂ Reordered plans others) (group : Nat)
    (owners : Array (Option Nat)) :
    checkFrom cols settings group owners others = checkFrom cols settings group owners plans := by
  induction same generalizing group owners with
  | nil => rfl
  | @cons plan other rest others first _ ih =>
    obtain ⟨columns, encoding⟩ := plan
    obtain ⟨columns', encoding'⟩ := other
    obtain ⟨same, perm⟩ := first
    have same : encoding' = encoding := same
    have perm : columns'.Perm columns := perm
    have blank : columns'.isEmpty = columns.isEmpty := perm.isEmpty_eq
    simp only [checkFrom, same, blank, Increasing.mergeSort_congr perm, ih]

theorem validate_congr (same : List.Forall₂ Reordered plans others) :
    validate others cols settings = validate plans cols settings := by
  rw [validate, validate, checkFrom_congr same]

theorem Feasible.validate_eq_ok (feasible : Feasible plans cols settings) :
    validate plans cols settings = .ok (plans.map sorted) := by
  refine ColumnPlan.validate_eq_ok (fun plan member => ⟨feasible.filled plan member, ?_⟩)
    (List.nodup_flatMap.mpr ⟨feasible.unrepeated, feasible.apart⟩) fun col member => ?_
  · exact allows_iff.mpr (feasible.enabled plan member)
  · obtain ⟨plan, listed, named⟩ := List.mem_flatMap.mp member
    exact feasible.inside plan listed col named

theorem feasible_of_validate {accepted : List ColumnPlan}
    (h : validate plans cols settings = .ok accepted) :
    accepted = plans.map sorted ∧ Feasible plans cols settings := by
  obtain ⟨rfl, each⟩ := checkFrom_eq_ok (mapError_eq_ok h)
  obtain ⟨distinct, inOrder⟩ := columns_of_validate h
  have order : ∀ plan : ColumnPlan, plan.sorted.columns.Perm plan.columns :=
    fun plan => plan.reordered_sorted.2
  have listed : ∀ plan ∈ plans, plan.sorted ∈ plans.map sorted :=
    fun plan member => List.mem_map_of_mem member
  obtain ⟨unrepeated, apart⟩ := List.nodup_flatMap.mp
    ((perm_of_reordered (forall₂_sorted plans)).nodup_iff.mp distinct)
  refine ⟨rfl, ?_, ?_, ?_, unrepeated, apart⟩
  · intro plan member none_
    refine (each _ (listed plan member)).1 ?_
    have perm := order plan
    rw [none_] at perm
    exact perm.eq_nil
  · exact fun plan member => allows_iff.mp (each _ (listed plan member)).2
  · exact fun plan member col named =>
      (inOrder _ (listed plan member)).2 col ((order plan).mem_iff.mpr named)

/-- Exactly the feasible plans are accepted. What comes of them are the same plans in the same order
with their columns in increasing order, and these are accepted as they are. Plans that name the same
columns in another order have the same outcome. -/
theorem validate_sorts_feasible (plans : List ColumnPlan) (cols : Nat) (settings : Settings) :
    ((∃ accepted, validate plans cols settings = .ok accepted) ↔ Feasible plans cols settings) ∧
    (∀ accepted, validate plans cols settings = .ok accepted →
      List.Forall₂ (fun plan result => result.encoding = plan.encoding ∧
        result.columns.Perm plan.columns ∧ result.columns.Pairwise (· < ·)) plans accepted ∧
      validate accepted cols settings = .ok accepted) ∧
    ∀ others, List.Forall₂ Reordered plans others →
      validate others cols settings = validate plans cols settings := by
  refine ⟨⟨?_, fun feasible => ⟨_, feasible.validate_eq_ok⟩⟩, ?_, fun _ => validate_congr⟩
  · rintro ⟨accepted, h⟩
    exact (feasible_of_validate h).2
  · intro accepted h
    obtain ⟨rfl, feasible⟩ := feasible_of_validate h
    refine ⟨?_, (validate_congr (forall₂_sorted plans)).trans h⟩
    rw [List.forall₂_map_right_iff, List.forall₂_same]
    intro plan member
    obtain ⟨same, perm⟩ := plan.reordered_sorted
    exact ⟨same, perm, Increasing.mergeSort (perm.nodup_iff.mpr (feasible.unrepeated plan member))⟩

/-- Two plans for three of four columns, which the first names out of order. -/
def outOfOrder : List ColumnPlan := [⟨[3, 1], .ddc⟩, ⟨[0], .sdc⟩]

/-- The plans are accepted, but not for fewer columns or with one of the columns named again. -/
theorem validate_sorts_feasible_outOfOrder :
    validate outOfOrder 4 {} = .ok [⟨[1, 3], .ddc⟩, ⟨[0], .sdc⟩] ∧
      validate [⟨[1, 3], .ddc⟩, ⟨[0], .sdc⟩] 4 {} = .ok [⟨[1, 3], .ddc⟩, ⟨[0], .sdc⟩] ∧
      (¬ ∃ accepted, validate outOfOrder 3 {} = .ok accepted) ∧
      (¬ ∃ accepted, validate (outOfOrder ++ [⟨[2, 3], .ole⟩]) 4 {} = .ok accepted) ∧
      ¬ ∃ accepted, validate (outOfOrder ++ [⟨[2, 2], .ole⟩]) 4 {} = .ok accepted := by
  have feasible : Feasible outOfOrder 4 {} :=
    ⟨by decide, by decide, by decide, by decide, by decide⟩
  have made := feasible.validate_eq_ok
  have order : [3, 1].mergeSort = [1, 3] := by
    rw [Increasing.mergeSort_congr (show [3, 1].Perm [1, 3] by decide)]
    exact List.mergeSort_of_pairwise (by decide)
  have result : outOfOrder.map sorted = [⟨[1, 3], .ddc⟩, ⟨[0], .sdc⟩] := by
    simp [outOfOrder, sorted, order]
  rw [result] at made
  refine ⟨made, ((validate_sorts_feasible outOfOrder 4 {}).2.1 _ made).2, ?_, ?_, ?_⟩
  · rw [(validate_sorts_feasible _ _ _).1]
    exact fun feasible => absurd feasible.inside (by decide)
  · rw [(validate_sorts_feasible _ _ _).1]
    exact fun feasible => absurd feasible.apart (by decide)
  · rw [(validate_sorts_feasible _ _ _).1]
    exact fun feasible => absurd feasible.unrepeated (by decide)

end ColumnPlan

end PackedMatrix
