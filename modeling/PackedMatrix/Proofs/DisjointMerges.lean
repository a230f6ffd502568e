import Mathlib.Data.List.Flatten
import PackedMatrix.Proofs.ProfileNumbers

namespace PackedMatrix

namespace Merger

theorem firstDisorder_of_increasing {list : List Nat} (sorted : list.Pairwise (· < ·)) :
    firstDisorder list = none := by
  fun_induction firstDisorder list with
  | case1 a b rest less ih => exact ih (List.pairwise_cons.mp sorted).2
  | case2 a b rest more => exact absurd ((List.pairwise_cons.mp sorted).1 b (by simp)) more
  | case3 => rfl

theorem finish_of_increasing (tuples : Nat) {merged : List Claim}
    (sorted : (merged.map Claim.row).Pairwise (· < ·)) : ∃ made,
      finish tuples merged = .ok made ∧ made.rows.toList = merged.map Claim.row := by
  refine ⟨⟨(merged.map Claim.row).toArray, CodeMap.ofList tuples (merged.map Claim.list)⟩, ?_, rfl⟩
  rw [finish, firstDisorder_of_increasing sorted]

theorem map_row_claims (lists : List (List Nat)) :
    (claims lists).map (List.map Claim.row) = lists := by
  rw [claims, List.map_map]
  have kept : ∀ entry : List Nat × Nat, (List.map Claim.row ∘ fun entry : List Nat × Nat =>
      entry.1.map fun row => (⟨row, entry.2⟩ : Claim)) entry = entry.1 := by
    intro entry
    simp [Function.comp_def]
  rw [List.map_congr_left fun entry _ => kept entry, List.zipIdx_map_fst]

/-- Neither the claims nor the order of each list are lost when neighbours are merged. -/
theorem mergePairs_perm (lists : List (List Claim)) :
    (mergePairs lists).flatten.Perm lists.flatten := by
  fun_induction mergePairs lists with
  | case1 a b rest ih =>
    rw [List.flatten_cons, List.flatten_cons, List.flatten_cons, ← List.append_assoc]
    exact (List.merge_perm_append _).append ih
  | case2 => exact .refl _

theorem mergeHeads_perm (lists : List (List Claim)) : (mergeHeads lists).Perm lists.flatten := by
  fun_induction mergeHeads lists with
  | case1 => exact .refl _
  | case2 list => simp
  | case3 a b rest ih => exact ih.trans (mergePairs_perm _)

theorem sorted_mergePairs {lists : List (List Claim)}
    (sorted : ∀ list ∈ lists, list.Pairwise fun a b => a.row ≤ b.row) :
    ∀ list ∈ mergePairs lists, list.Pairwise fun a b => a.row ≤ b.row := by
  fun_induction mergePairs lists with
  | case1 a b rest ih =>
    have first := sorted a (by simp)
    have second := sorted b (by simp)
    intro list member
    rcases List.mem_cons.mp member with rfl | later
    · have merged : (a.merge b fun x y => decide (x.row ≤ y.row)).Pairwise
          fun x y => decide (x.row ≤ y.row) = true := by
        refine List.pairwise_merge ?_ ?_ a b (by simpa using first) (by simpa using second)
        · intro x y z
          simp only [decide_eq_true_eq]
          omega
        · intro x y
          simp only [Bool.or_eq_true, decide_eq_true_eq]
          omega
      simpa using merged
    · exact ih (fun other listed => sorted other (by simp [listed])) list later
  | case2 => exact sorted

theorem sorted_mergeHeads {lists : List (List Claim)}
    (sorted : ∀ list ∈ lists, list.Pairwise fun a b => a.row ≤ b.row) :
    (mergeHeads lists).Pairwise fun a b => a.row ≤ b.row := by
  fun_induction mergeHeads lists with
  | case1 => exact .nil
  | case2 list => exact sorted list (by simp)
  | case3 a b rest ih => exact ih (sorted_mergePairs sorted)

/-- Lists in order that share no row are merged into increasing rows. -/
theorem increasing_mergeHeads {lists : List (List Claim)}
    (sorted : ∀ list ∈ lists, (list.map Claim.row).Pairwise (· < ·))
    (distinct : (lists.flatten.map Claim.row).Nodup) :
    ((mergeHeads lists).map Claim.row).Pairwise (· < ·) := by
  have order : (mergeHeads lists).Pairwise fun a b => a.row ≤ b.row := by
    refine sorted_mergeHeads fun list member => ?_
    exact (List.pairwise_map.mp (sorted list member)).imp Nat.le_of_lt
  have apart : ((mergeHeads lists).map Claim.row).Nodup :=
    ((mergeHeads_perm lists).map Claim.row).nodup_iff.mpr distinct
  exact Increasing.of_le (List.pairwise_map.mpr order) apart

theorem markSlots_of_free {slots : Array (Option Nat)} {claims : List Claim}
    (free : ∀ claim ∈ claims, slots[claim.row]? = some none)
    (distinct : (claims.map Claim.row).Nodup) : ∃ made, markSlots slots claims = .ok made := by
  induction claims generalizing slots with
  | nil => exact ⟨slots, rfl⟩
  | cons claim rest ih =>
    obtain ⟨apart, distinct⟩ := List.nodup_cons.mp distinct
    have here := free claim (by simp)
    have later : ∀ other ∈ rest,
        (slots.setIfInBounds claim.row (some claim.list))[other.row]? = some none := by
      intro other member
      have differs : claim.row ≠ other.row := by
        intro same
        exact apart (same ▸ List.mem_map_of_mem member)
      rw [Array.getElem?_setIfInBounds_ne differs]
      exact free other (List.mem_cons_of_mem _ member)
    obtain ⟨made, marked⟩ := ih later distinct
    exact ⟨made, by rw [markSlots, here]; exact marked⟩

theorem increasing_slotClaims (choose : Option Nat × Nat → Option Claim)
    (kept : ∀ slot claim, choose slot = some claim → claim.row = slot.2)
    (slots : List (Option Nat)) :
    ((slots.zipIdx.filterMap choose).map Claim.row).Pairwise (· < ·) := by
  have places : (slots.zipIdx.map Prod.snd).Pairwise (· < ·) := by
    rw [List.zipIdx_map_snd]
    exact List.pairwise_lt_range'
  rw [List.pairwise_map, List.pairwise_filterMap]
  refine (List.pairwise_map.mp places).imp ?_
  intro first second less a chosen b chosen'
  rw [kept first a chosen, kept second b chosen']
  exact less

theorem row_of_claimOfSlot {excluded zeroCode : Nat} {slot : Option Nat × Nat} {claim : Claim}
    (h : claimOfSlot excluded zeroCode slot = some claim) : claim.row = slot.2 := by
  obtain ⟨marked, row⟩ := slot
  cases marked with
  | none =>
    cases h
    rfl
  | some list =>
    unfold claimOfSlot at h
    simp only at h
    split at h
    next => cases h
    next =>
      cases h
      rfl

section Disjoint

variable {lists : List (List Nat)} {rows : Nat} (disjoint : DisjointLists lists rows)
  (strategy : MergeStrategy)

include disjoint

theorem increasing_claims : ∀ list ∈ claims lists, (list.map Claim.row).Pairwise (· < ·) := by
  intro list member
  refine disjoint.increasing _ ?_
  rw [← map_row_claims lists]
  exact List.mem_map_of_mem member

theorem distinct_claims : ((claims lists).flatten.map Claim.row).Nodup := by
  rw [List.map_flatten, map_row_claims]
  exact disjoint.distinct

theorem exists_scatter : ∃ slots, scatter ⟨strategy, rows⟩ lists = .ok slots := by
  refine markSlots_of_free (fun claim member => ?_) (distinct_claims disjoint)
  have inside : claim.row < rows := disjoint.row_lt (mem_claims.mp member)
  rw [Array.getElem?_replicate, if_pos inside]

theorem exists_insert : ∃ merged, insert ⟨strategy, rows⟩ lists = .ok merged := by
  cases strategy with
  | heads =>
    obtain ⟨made, finished, _⟩ := finish_of_increasing lists.length
      (increasing_mergeHeads (increasing_claims disjoint) (distinct_claims disjoint))
    exact ⟨made, finished⟩
  | slots =>
    obtain ⟨slots, marked⟩ := exists_scatter disjoint .slots
    have kept : ∀ (slot : Option Nat × Nat) (claim : Claim),
        (slot.1.map fun list => (⟨slot.2, list⟩ : Claim)) = some claim → claim.row = slot.2 := by
      intro slot claim chosen
      obtain ⟨list, _, rfl⟩ := Option.map_eq_some_iff.mp chosen
      rfl
    have sorted := increasing_slotClaims _ kept slots.toList
    obtain ⟨made, finished, _⟩ := finish_of_increasing lists.length sorted
    exact ⟨made, by simp only [insert, marked]; exact finished⟩

/-- The claims outside one list, in the order of their rows, are as many as there are rows outside
it. -/
theorem length_of_outside {excluded : Nat} {merged : List Claim}
    (sorted : (merged.map Claim.row).Pairwise (· < ·))
    (outside : ∀ row code, (⟨row, code⟩ : Claim) ∈ merged ↔ Outside lists rows excluded row code) :
    merged.length = rows - (lists.getD excluded []).length := by
  obtain ⟨made, finished, kept⟩ := finish_of_increasing lists.length sorted
  have collects := (finish_eq_ok finished).congr outside
  have order := disjoint.increasing_getD excluded
  have listed : made.rows.toList =
      (SparseShape.complement rows 0 (lists.getD excluded []) #[]).toList := by
    refine Increasing.eq_of_mem_iff collects.increasing (SparseShape.increasing_complement order) ?_
    intro row
    rw [collects.mem_rows_iff, exists_outside_iff disjoint, SparseShape.mem_complement order]
  have count := SparseShape.length_complement order fun row member => disjoint.row_lt member
  rw [← List.length_map (f := Claim.row), ← kept, listed]
  exact count

theorem exists_insertExcluding {excluded : Nat} (inside : excluded < lists.length) :
    ∃ merged, insertExcluding ⟨strategy, rows⟩ lists excluded = .ok merged := by
  have named : ¬ excluded ≥ lists.length := Nat.not_le.mpr inside
  have few : ¬ total (lists.map List.length) > rows := Nat.not_lt.mpr disjoint.total_le
  obtain ⟨slots, marked⟩ := exists_scatter disjoint strategy
  have merges : ∀ merged : List Claim, (merged.map Claim.row).Pairwise (· < ·) →
      (∀ row code, (⟨row, code⟩ : Claim) ∈ merged ↔ Outside lists rows excluded row code) →
      ∃ made, (if merged.length ≠ rows - (lists.getD excluded []).length then
          .error (.invariant (.mergedCount merged.length
            (rows - (lists.getD excluded []).length)))
        else finish lists.length merged : Except PackError MergedRows) = .ok made := by
    intro merged sorted outside
    obtain ⟨made, finished, _⟩ := finish_of_increasing lists.length sorted
    have count := length_of_outside disjoint sorted outside
    exact ⟨made, by rw [if_neg (fun differs => differs count)]; exact finished⟩
  unfold insertExcluding
  simp only
  rw [if_neg named, if_neg few]
  by_cases heads : total (lists.map List.length) = rows ∧ strategy = .heads
  · rw [if_pos heads]
    refine merges _ ?_ fun row code => mem_headClaims disjoint heads.1
    have part := List.eraseIdx_sublist (claims lists) excluded
    have sorted : ((mergeHeads ((claims lists).eraseIdx excluded)).map Claim.row).Pairwise
        (· < ·) :=
      increasing_mergeHeads
        (fun list member => increasing_claims disjoint list (part.subset member))
        ((part.flatten.map Claim.row).nodup (distinct_claims disjoint))
    rw [List.map_map]
    exact sorted
  · rw [if_neg heads, marked]
    exact merges _ (increasing_slotClaims _ (fun _ _ => row_of_claimOfSlot) slots.toList)
      fun row code => mem_slotClaims marked

end Disjoint

end Merger

end PackedMatrix
