import Mathlib.Data.List.Nodup
import PackedMatrix.Packed
import PackedMatrix.Proofs.Steps

namespace PackedMatrix

namespace Packed

/-- Claiming enters each column of a group once, at a place that was free, and no other column. -/
theorem claim_eq_ok {cols group : Nat} {owners entered : Array (Option Nat)} {columns : List Nat}
    (h : claim cols group owners columns = .ok entered) :
    columns.Nodup ∧ (∀ column ∈ columns, owners[column]? = some none) ∧
      ∀ column : Nat, entered[column]? =
        if column ∈ columns then some (some group) else owners[column]? := by
  induction columns generalizing owners with
  | nil =>
    cases h
    simp
  | cons first rest ih =>
    unfold claim at h
    split at h
    next => simp at h
    next => simp at h
    next free =>
      obtain ⟨bound, _⟩ := Array.getElem?_eq_some_iff.mp free
      obtain ⟨distinct, open_, found⟩ := ih h
      have outside : first ∉ rest := by
        intro member
        have := open_ first member
        simp [bound] at this
      refine ⟨List.nodup_cons.mpr ⟨outside, distinct⟩, ?_, ?_⟩
      · intro column member
        rcases List.mem_cons.mp member with rfl | member
        · exact free
        · have differs : first ≠ column := fun same => outside (same ▸ member)
          simpa [Array.getElem?_setIfInBounds, differs] using open_ column member
      · intro column
        rw [found column]
        by_cases same : first = column
        · subst same
          simp [outside, bound]
        · have differs : column ≠ first := fun equal => same equal.symm
          simp [same, differs]

/-- Columns that have no owner yet, none of them named twice. -/
structure Unclaimed (owners : Array (Option Nat)) (columns : List Nat) : Prop where
  distinct : columns.Nodup
  free : ∀ column ∈ columns, owners[column]? = some none

/-- Claiming some columns leaves exactly the others unclaimed. -/
theorem unclaimed_append_iff {cols group : Nat} {owners claimed : Array (Option Nat)}
    {own others : List Nat} (taken : claim cols group owners own = .ok claimed) :
    Unclaimed owners (own ++ others) ↔ Unclaimed claimed others := by
  obtain ⟨distinct, free, found⟩ := claim_eq_ok taken
  constructor
  · intro all
    obtain ⟨_, distinct', apart⟩ := List.nodup_append.mp all.distinct
    refine ⟨distinct', fun column member => ?_⟩
    rw [found, if_neg fun inOwn => apart _ inOwn _ member rfl]
    exact all.free column (List.mem_append_right _ member)
  · intro later
    have outside : ∀ column ∈ others, column ∉ own := by
      intro column member inOwn
      have open_ := later.free column member
      rw [found, if_pos inOwn] at open_
      cases open_
    refine ⟨List.nodup_append.mpr ⟨distinct, later.distinct, ?_⟩, ?_⟩
    · rintro a inOwn _ inOthers rfl
      exact outside a inOthers inOwn
    · intro column member
      rcases List.mem_append.mp member with inOwn | inOthers
      · exact free column inOwn
      · have open_ := later.free column inOthers
        rwa [found, if_neg (outside column inOthers)] at open_

/-- The columns of the groups from number `index` on were free and are entered, each for one group;
other columns keep their owners. -/
structure Entered (index : Nat) (owners entered : Array (Option Nat)) (groups : List Group) :
    Prop where
  distinct : (groups.flatMap Group.columns).Nodup
  free : ∀ column ∈ groups.flatMap Group.columns, owners[column]? = some none
  kept : ∀ column, column ∉ groups.flatMap Group.columns → entered[column]? = owners[column]?
  owned : ∀ (place : Nat) (group : Group), groups[place]? = some group → ∀ column ∈ group.columns,
    entered[column]? = some (some (index + place))

theorem Entered.cons {cols index : Nat} {owners claimed entered : Array (Option Nat)}
    {first : Group} {rest : List Group}
    (taken : claim cols index owners first.columns = .ok claimed)
    (later : Entered (index + 1) claimed entered rest) :
    Entered index owners entered (first :: rest) := by
  obtain ⟨_, _, found⟩ := claim_eq_ok taken
  obtain ⟨distinct, free⟩ := (unclaimed_append_iff taken).mpr ⟨later.distinct, later.free⟩
  obtain ⟨_, _, apart⟩ := List.nodup_append.mp distinct
  rw [← List.flatMap_cons] at distinct free
  refine ⟨distinct, free, ?_, ?_⟩
  · intro column outside
    rw [List.flatMap_cons, List.mem_append, not_or] at outside
    rw [later.kept column outside.2, found column, if_neg outside.1]
  · intro place group here column member
    cases place with
    | zero =>
      obtain rfl : first = group := by simpa using here
      have outside : column ∉ rest.flatMap Group.columns := fun again => apart _ member _ again rfl
      rw [later.kept column outside, found column, if_pos member, Nat.add_zero]
    | succ place =>
      have here : rest[place]? = some group := by simpa using here
      rw [later.owned place group here column member]
      congr 2
      omega

/-- Groups whose columns could all be claimed are valid and have the rows of the matrix. -/
theorem claimAll_eq_ok {rows cols index : Nat} {owners entered : Array (Option Nat)}
    {groups : List Group} (h : claimAll rows cols index owners groups = .ok entered) :
    (∀ group ∈ groups, group.validate = .ok () ∧ group.rows = rows) ∧
      Entered index owners entered groups := by
  induction groups generalizing index owners with
  | nil =>
    cases h
    exact ⟨by simp, by simp, by simp, by simp, by simp⟩
  | cons first rest ih =>
    unfold claimAll at h
    split at h
    next => cases h
    next _ valid =>
      obtain ⟨sameRows, h⟩ := guard_eq_ok_iff.mp h
      split at h
      next => cases h
      next claimed taken =>
        obtain ⟨fit, later⟩ := ih h
        refine ⟨?_, .cons taken later⟩
        intro group member
        rcases List.mem_cons.mp member with rfl | member
        · exact ⟨valid, by simpa using sameRows⟩
        · exact fit group member

/-- The groups of a matrix fit it and share out its columns, and each column's owner is known. -/
structure Covered (packed : Packed) : Prop where
  valid : ∀ group ∈ packed.groups, group.validate = .ok ()
  rows : ∀ group ∈ packed.groups, group.rows = packed.rows
  columns : (packed.groups.flatMap Group.columns).Perm (List.range packed.cols)
  width : packed.owners.size = packed.cols
  owner : ∀ (place : Nat) (group : Group), packed.groups[place]? = some group →
    ∀ column ∈ group.columns, packed.owners[column]? = some place

theorem size_claim {cols group : Nat} {owners entered : Array (Option Nat)} {columns : List Nat}
    (h : claim cols group owners columns = .ok entered) : entered.size = owners.size := by
  induction columns generalizing owners with
  | nil => cases h; rfl
  | cons first rest ih =>
    unfold claim at h
    split at h
    next => simp at h
    next => simp at h
    next => simpa using ih h

theorem size_claimAll {rows cols index : Nat} {owners entered : Array (Option Nat)}
    {groups : List Group} (h : claimAll rows cols index owners groups = .ok entered) :
    entered.size = owners.size := by
  induction groups generalizing index owners with
  | nil => cases h; rfl
  | cons first rest ih =>
    unfold claimAll at h
    split at h
    next => simp at h
    next =>
      split at h
      next => simp at h
      next =>
        split at h
        next => simp at h
        next taken => rw [ih h, size_claim taken]

theorem fields_of_ofGroups {rows cols : Nat} {groups : List Group} {packed : Packed}
    (h : ofGroups rows cols groups = .ok packed) :
    packed.rows = rows ∧ packed.cols = cols ∧ packed.groups = groups := by
  unfold ofGroups at h
  split at h
  next => simp at h
  next =>
    split at h
    next => simp at h
    next =>
      cases h
      exact ⟨rfl, rfl, rfl⟩

theorem covered_of_ofGroups {rows cols : Nat} {groups : List Group} {packed : Packed}
    (h : ofGroups rows cols groups = .ok packed) : packed.Covered := by
  unfold ofGroups at h
  split at h
  next => simp at h
  next entered claimed =>
    split at h
    next => simp at h
    next full =>
      cases h
      obtain ⟨fit, distinct, free, kept, owned⟩ := claimAll_eq_ok claimed
      have size : entered.size = cols := by simpa using size_claimAll claimed
      have inside : ∀ column, column ∈ groups.flatMap Group.columns ↔ column ∈ List.range cols := by
        intro column
        constructor
        · intro member
          have open_ := free column member
          have bound := (Array.getElem?_eq_some_iff.mp open_).1
          simpa using bound
        · intro member
          have bound : column < cols := by simpa using member
          by_contra outside
          have empty : entered[column]? = some none := by
            rw [kept column outside]
            simp [bound]
          obtain ⟨place, here⟩ := Array.getElem?_eq_some_iff.mp empty
          have taken := Array.findIdx?_eq_none_iff.mp full entered[column] (Array.getElem_mem place)
          simp [here] at taken
      refine ⟨fun group member => (fit group member).1, fun group member => (fit group member).2,
        ?_, by simpa using size, ?_⟩
      · exact (List.perm_ext_iff_of_nodup distinct List.nodup_range).mpr inside
      · intro place group here column member
        have claimed := owned place group here column member
        rw [Nat.zero_add] at claimed
        simp [claimed]

theorem exists_claim {cols group : Nat} {owners : Array (Option Nat)} {columns : List Nat}
    (unclaimed : Unclaimed owners columns) :
    ∃ entered, claim cols group owners columns = .ok entered := by
  induction columns generalizing owners with
  | nil => exact ⟨owners, rfl⟩
  | cons first rest ih =>
    obtain ⟨outside, distinct⟩ := List.nodup_cons.mp unclaimed.distinct
    have here := unclaimed.free first (by simp)
    have later : ∀ column ∈ rest,
        (owners.setIfInBounds first (some group))[column]? = some none := by
      intro column member
      have differs : first ≠ column := fun same => outside (same ▸ member)
      rw [Array.getElem?_setIfInBounds_ne differs]
      exact unclaimed.free column (List.mem_cons_of_mem _ member)
    obtain ⟨entered, claimed⟩ := ih ⟨distinct, later⟩
    exact ⟨entered, by rw [claim, here]; exact claimed⟩

/-- The columns of the first group can be claimed, which leaves those of the others. -/
theorem exists_claim_append (cols group : Nat) {owners : Array (Option Nat)}
    {own others : List Nat} (unclaimed : Unclaimed owners (own ++ others)) :
    ∃ claimed, claim cols group owners own = .ok claimed ∧ Unclaimed claimed others := by
  obtain ⟨claimed, taken⟩ : ∃ claimed, claim cols group owners own = .ok claimed :=
    exists_claim ⟨(List.nodup_append.mp unclaimed.distinct).1,
      fun column member => unclaimed.free column (List.mem_append_left _ member)⟩
  exact ⟨claimed, taken, (unclaimed_append_iff taken).mp unclaimed⟩

theorem exists_claimAll {rows cols index : Nat} {owners : Array (Option Nat)} {groups : List Group}
    (fit : ∀ group ∈ groups, group.validate = .ok () ∧ group.rows = rows)
    (unclaimed : Unclaimed owners (groups.flatMap Group.columns)) :
    ∃ entered, claimAll rows cols index owners groups = .ok entered := by
  induction groups generalizing index owners with
  | nil => exact ⟨owners, rfl⟩
  | cons first rest ih =>
    rw [List.flatMap_cons] at unclaimed
    obtain ⟨valid, same⟩ := fit first (by simp)
    obtain ⟨claimed, taken, later⟩ := exists_claim_append cols index unclaimed
    obtain ⟨entered, all⟩ := ih (fun group member => fit group (List.mem_cons_of_mem _ member))
      later
    refine ⟨entered, ?_⟩
    have sameRows : ¬ first.rows ≠ rows := fun differs => differs same
    simp only [claimAll, valid, if_neg sameRows, taken]
    exact all

theorem exists_ofGroups {rows cols : Nat} {groups : List Group}
    (fit : ∀ group ∈ groups, group.validate = .ok () ∧ group.rows = rows)
    (columns : (groups.flatMap Group.columns).Perm (List.range cols)) :
    ∃ packed, ofGroups rows cols groups = .ok packed := by
  have free : ∀ column ∈ groups.flatMap Group.columns,
      (Array.replicate cols (none : Option Nat))[column]? = some none := by
    intro column member
    have inside := List.mem_range.mp (columns.mem_iff.mp member)
    rw [Array.getElem?_replicate, if_pos inside]
  obtain ⟨entered, claimed⟩ : ∃ entered, claimAll rows cols 0 (Array.replicate cols none) groups =
      .ok entered := exists_claimAll fit ⟨columns.nodup_iff.mpr List.nodup_range, free⟩
  have size : entered.size = cols := by simpa using size_claimAll claimed
  have full : entered.findIdx? Option.isNone = none := by
    refine Array.findIdx?_eq_none_iff.mpr fun owner member => ?_
    obtain ⟨column, bound, rfl⟩ := Array.mem_iff_getElem.mp member
    have listed := columns.mem_iff.mpr (List.mem_range.mpr (size ▸ bound))
    obtain ⟨group, here, inGroup⟩ := List.mem_flatMap.mp listed
    obtain ⟨place, found⟩ := List.mem_iff_getElem?.mp here
    have owned := (claimAll_eq_ok claimed).2.owned place group found column inGroup
    rw [Array.getElem?_eq_getElem bound] at owned
    simp [Option.some.inj owned]
  exact ⟨⟨rows, cols, groups, entered.map (·.getD 0)⟩, by simp only [ofGroups, claimed, full]⟩

namespace Covered

variable {packed : Packed}

theorem total_columns (covered : packed.Covered) :
    total (packed.groups.map fun group => group.columns.length) = packed.cols := by
  have counted : ∀ groups : List Group,
      total (groups.map fun group => group.columns.length) =
        (groups.flatMap Group.columns).length := by
    intro groups
    induction groups with
    | nil => rfl
    | cons group rest ih => simp [ih]
  rw [counted, covered.columns.length_eq, List.length_range]

theorem column_lt (covered : packed.Covered) {group : Group} (member : group ∈ packed.groups)
    {column : Nat} (inside : column ∈ group.columns) : column < packed.cols := by
  have listed : column ∈ packed.groups.flatMap Group.columns :=
    List.mem_flatMap.mpr ⟨group, member, inside⟩
  simpa using covered.columns.mem_iff.mp listed

theorem groupOf?_eq (covered : packed.Covered) {column : Nat} (inside : column < packed.cols) :
    ∃ group ∈ packed.groups, column ∈ group.columns ∧ packed.groupOf? column = some group := by
  have listed : column ∈ packed.groups.flatMap Group.columns :=
    covered.columns.mem_iff.mpr (by simpa using inside)
  obtain ⟨group, member, has⟩ := List.mem_flatMap.mp listed
  obtain ⟨place, here⟩ := List.mem_iff_getElem?.mp member
  refine ⟨group, member, has, ?_⟩
  simp [groupOf?, covered.owner place group here column has, here]

theorem groupOf?_eq_none (covered : packed.Covered) {column : Nat}
    (outside : packed.cols ≤ column) : packed.groupOf? column = none := by
  have := covered.width
  simp [groupOf?, Array.getElem?_eq_none (show packed.owners.size ≤ column by omega)]

end Covered

end Packed

end PackedMatrix
