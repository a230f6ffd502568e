import PackedMatrix.Merge
import PackedMatrix.Proofs.BitmapView
import PackedMatrix.Proofs.Steps

namespace PackedMatrix

/-- The rows increase, and the pairs of a row and its code are the wanted ones. -/
structure MergedRows.Collects (merged : MergedRows) (tuples : Nat) (wanted : Nat → Nat → Prop)
    (codes : List Nat) : Prop where
  increasing : merged.rows.toList.Pairwise (· < ·)
  stored : merged.codes = CodeMap.ofList tuples codes
  length : codes.length = merged.rows.size
  mem_iff : ∀ row code, (row, code) ∈ merged.rows.toList.zip codes ↔ wanted row code

theorem MergedRows.Collects.congr {merged : MergedRows} {tuples : Nat} {a b : Nat → Nat → Prop}
    {codes : List Nat} (h : merged.Collects tuples a codes)
    (same : ∀ row code, a row code ↔ b row code) : merged.Collects tuples b codes :=
  ⟨h.increasing, h.stored, h.length, fun row code => (h.mem_iff row code).trans (same row code)⟩

/-- What is collected for a list of rows is a code for each of them. -/
theorem MergedRows.Collects.of_rows {merged : MergedRows} {tuples : Nat}
    {wanted : Nat → Nat → Prop} {codes listed : List Nat} (h : merged.Collects tuples wanted codes)
    (rows : merged.rows.toList = listed) :
    codes.length = listed.length ∧
      ∀ row code, (row, code) ∈ listed.zip codes ↔ wanted row code := by
  subst rows
  exact ⟨h.length.trans Array.length_toList.symm, h.mem_iff⟩

theorem MergedRows.Collects.mem_rows_iff {merged : MergedRows} {tuples : Nat}
    {wanted : Nat → Nat → Prop} {codes : List Nat} (h : merged.Collects tuples wanted codes)
    {row : Nat} : row ∈ merged.rows.toList ↔ ∃ code, wanted row code := by
  constructor
  · intro member
    obtain ⟨i, inside, rfl⟩ := List.mem_iff_getElem.mp member
    have length := h.length
    rw [← Array.length_toList] at length
    have coded : i < codes.length := by omega
    refine ⟨codes[i], (h.mem_iff _ _).mp ?_⟩
    exact List.mem_iff_getElem.mpr ⟨i, by rw [List.length_zip]; omega, List.getElem_zip⟩
  · rintro ⟨code, here⟩
    exact (List.of_mem_zip ((h.mem_iff row code).mpr here)).1

namespace Merger

theorem mem_claims {lists : List (List Nat)} {claim : Claim} :
    claim ∈ (claims lists).flatten ↔ claim.row ∈ lists.getD claim.list [] := by
  rw [List.getD_eq_getElem?_getD]
  constructor
  · intro member
    obtain ⟨made, listed, inside⟩ := List.mem_flatten.mp member
    obtain ⟨⟨list, number⟩, named, rfl⟩ := List.mem_map.mp listed
    obtain ⟨row, here, rfl⟩ := List.mem_map.mp inside
    rw [List.mem_zipIdx_iff_getElem?] at named
    simpa [named] using here
  · intro member
    cases known : lists[claim.list]? with
    | none => simp [known] at member
    | some list =>
      have here : claim.row ∈ list := by simpa [known] using member
      exact List.mem_flatten.mpr ⟨_, List.mem_map.mpr
        ⟨(list, claim.list), List.mem_zipIdx_iff_getElem?.mpr known, rfl⟩,
        List.mem_map.mpr ⟨claim.row, here, rfl⟩⟩

theorem mem_claims_eraseIdx {lists : List (List Nat)} {excluded : Nat} {claim : Claim} :
    claim ∈ ((claims lists).eraseIdx excluded).flatten ↔
      claim.list ≠ excluded ∧ claim.row ∈ lists.getD claim.list [] := by
  have number : ∀ i made, (claims lists)[i]? = some made →
      ∀ other : Claim, other ∈ made → other.list = i := by
    intro i made known other member
    rw [claims, List.getElem?_map] at known
    obtain ⟨⟨list, place⟩, found, rfl⟩ := Option.map_eq_some_iff.mp known
    obtain ⟨row, _, rfl⟩ := List.mem_map.mp member
    rw [List.getElem?_zipIdx] at found
    obtain ⟨_, _, pair⟩ := Option.map_eq_some_iff.mp found
    simpa using (congrArg Prod.snd pair).symm
  constructor
  · intro member
    obtain ⟨made, listed, inside⟩ := List.mem_flatten.mp member
    obtain ⟨i, other, known⟩ := List.mem_eraseIdx_iff_getElem?.mp listed
    refine ⟨?_, mem_claims.mp (List.mem_flatten.mpr ⟨made, List.mem_of_getElem? known, inside⟩)⟩
    rw [number i made known claim inside]
    exact other
  · rintro ⟨other, member⟩
    obtain ⟨made, listed, inside⟩ := List.mem_flatten.mp (mem_claims.mpr member)
    obtain ⟨i, known⟩ := List.mem_iff_getElem?.mp listed
    refine List.mem_flatten.mpr ⟨made, List.mem_eraseIdx_iff_getElem?.mpr ⟨i, ?_, known⟩, inside⟩
    rw [← number i made known claim inside]
    exact other

theorem mem_mergePairs {lists : List (List Claim)} {claim : Claim} :
    claim ∈ (mergePairs lists).flatten ↔ claim ∈ lists.flatten := by
  fun_induction mergePairs lists with
  | case1 a b rest ih =>
    simp only [List.flatten_cons, List.mem_append, List.mem_merge, ih, or_assoc]
  | case2 lists short => rfl

theorem mem_mergeHeads {lists : List (List Claim)} {claim : Claim} :
    claim ∈ mergeHeads lists ↔ claim ∈ lists.flatten := by
  fun_induction mergeHeads lists with
  | case1 => simp
  | case2 list => simp
  | case3 a b rest ih => rw [ih, mem_mergePairs]

/-- Slots that could be marked name every claim; nothing else changes. -/
theorem markSlots_eq_ok {slots made : Array (Option Nat)} {claims : List Claim}
    (h : markSlots slots claims = .ok made) : made.size = slots.size ∧
      ∀ row list, made[row]? = some (some list) ↔
        slots[row]? = some (some list) ∨ ⟨row, list⟩ ∈ claims := by
  induction claims generalizing slots with
  | nil =>
    cases h
    simp
  | cons claim rest ih =>
    rw [markSlots] at h
    split at h
    next => cases h
    next => cases h
    next free =>
      obtain ⟨size, marked⟩ := ih h
      obtain ⟨inside, empty⟩ := Array.getElem?_eq_some_iff.mp free
      refine ⟨by rw [size, Array.size_setIfInBounds], ?_⟩
      intro row list
      rw [marked, Array.getElem?_setIfInBounds, List.mem_cons]
      by_cases here : claim.row = row
      · subst here
        cases claim
        simp [inside, empty, eq_comm]
      · have apart : (⟨row, list⟩ : Claim) ≠ claim := fun same => here (by rw [← same])
        simp [here, apart]

theorem scatter_eq_ok {merger : Merger} {lists : List (List Nat)} {slots : Array (Option Nat)}
    (h : merger.scatter lists = .ok slots) : slots.size = merger.rows ∧
      ∀ row list, slots[row]? = some (some list) ↔ row ∈ lists.getD list [] := by
  obtain ⟨size, marked⟩ := markSlots_eq_ok h
  refine ⟨by rw [size, Array.size_replicate], ?_⟩
  intro row list
  rw [marked, mem_claims]
  simp [Array.getElem?_replicate]

theorem firstDisorder_eq_none {list : List Nat} (h : firstDisorder list = none) :
    list.Pairwise (· < ·) := by
  fun_induction firstDisorder list with
  | case1 a b rest less ih =>
    have order := ih h
    refine List.pairwise_cons.mpr ⟨?_, order⟩
    intro other member
    rcases List.mem_cons.mp member with rfl | later
    · exact less
    · exact Nat.lt_trans less ((List.pairwise_cons.mp order).1 other later)
  | case2 a b rest => cases h
  | case3 list short =>
    match list, short with
    | [], _ => exact .nil
    | [_], _ => exact List.pairwise_singleton _ _
    | a :: b :: rest, short => exact (short a b rest rfl).elim

theorem finish_eq_ok {tuples : Nat} {merged : List Claim} {made : MergedRows}
    (h : finish tuples merged = .ok made) :
    made.Collects tuples (fun row code => ⟨row, code⟩ ∈ merged) (merged.map Claim.list) := by
  unfold finish at h
  split at h
  next => cases h
  next order =>
    cases h
    constructor
    case increasing => simpa using firstDisorder_eq_none order
    case stored => rfl
    case length => simp
    case mem_iff =>
      intro row code
      rw [List.zip_map']
      constructor
      · intro member
        obtain ⟨claim, listed, same⟩ := List.mem_map.mp member
        cases same
        exact listed
      · intro member
        exact List.mem_map.mpr ⟨_, member, rfl⟩

theorem insert_eq_ok {merger : Merger} {lists : List (List Nat)} {merged : MergedRows}
    (h : merger.insert lists = .ok merged) :
    ∃ codes, merged.Collects lists.length (fun row code => row ∈ lists.getD code []) codes := by
  unfold insert at h
  split at h
  next =>
    refine ⟨_, (finish_eq_ok h).congr ?_⟩
    intro row code
    rw [mem_mergeHeads, mem_claims]
  next =>
    split at h
    next => cases h
    next slots marked =>
      obtain ⟨_, known⟩ := scatter_eq_ok marked
      refine ⟨_, (finish_eq_ok h).congr ?_⟩
      intro row code
      rw [← known]
      constructor
      · intro member
        obtain ⟨⟨slot, place⟩, listed, same⟩ := List.mem_filterMap.mp member
        obtain ⟨list, rfl, equal⟩ := Option.map_eq_some_iff.mp same
        cases equal
        simpa [List.mem_zipIdx_iff_getElem?] using listed
      · intro here
        refine List.mem_filterMap.mpr ⟨(some code, row), ?_, rfl⟩
        simpa [List.mem_zipIdx_iff_getElem?] using here

theorem shift_lt {excluded list count : Nat} (inside : excluded < count) (bound : list < count)
    (other : list ≠ excluded) : shift excluded list < count - 1 := by
  rw [shift]
  split <;> omega

theorem shift_injective {excluded a b : Nat} (otherA : a ≠ excluded) (otherB : b ≠ excluded)
    (same : shift excluded a = shift excluded b) : a = b := by
  rw [shift, shift] at same
  split at same <;> split at same <;> omega

/-- What a merge that excludes one list says about a row: the shifted number of another list that
names it, or the last code if no list does. -/
def Outside (lists : List (List Nat)) (rows excluded row code : Nat) : Prop :=
  (∃ i, i ≠ excluded ∧ row ∈ lists.getD i [] ∧ code = shift excluded i) ∨
    (row < rows ∧ row ∉ lists.flatten ∧ code = lists.length - 1)

theorem mem_claimOfSlot {slots : Array (Option Nat)} {excluded zeroCode row code : Nat} :
    (⟨row, code⟩ : Claim) ∈ slots.toList.zipIdx.filterMap (claimOfSlot excluded zeroCode) ↔
      (∃ i, i ≠ excluded ∧ slots[row]? = some (some i) ∧ code = shift excluded i) ∨
        (slots[row]? = some none ∧ code = zeroCode) := by
  constructor
  · intro member
    obtain ⟨⟨slot, place⟩, listed, same⟩ := List.mem_filterMap.mp member
    have known : slots[place]? = some slot := by
      simpa [List.mem_zipIdx_iff_getElem?] using listed
    cases slot with
    | none =>
      cases same
      exact .inr ⟨known, rfl⟩
    | some list =>
      by_cases out : list = excluded
      · simp [claimOfSlot, out] at same
      · simp only [claimOfSlot, out, ↓reduceIte, Option.some.injEq] at same
        cases same
        exact .inl ⟨list, out, known, rfl⟩
  · intro wanted
    rcases wanted with ⟨list, other, known, rfl⟩ | ⟨known, rfl⟩
    · refine List.mem_filterMap.mpr ⟨(some list, row), ?_, by simp [claimOfSlot, other]⟩
      simpa [List.mem_zipIdx_iff_getElem?] using known
    · refine List.mem_filterMap.mpr ⟨(none, row), ?_, by simp [claimOfSlot]⟩
      simpa [List.mem_zipIdx_iff_getElem?] using known

/-- A slot stays free if no list names its row. -/
theorem scatter_free {merger : Merger} {lists : List (List Nat)} {slots : Array (Option Nat)}
    (h : merger.scatter lists = .ok slots) (row : Nat) :
    slots[row]? = some none ↔ row < merger.rows ∧ row ∉ lists.flatten := by
  obtain ⟨size, known⟩ := scatter_eq_ok h
  rw [DisjointLists.mem_flatten_iff]
  simp only [← known]
  constructor
  · intro here
    obtain ⟨inside, _⟩ := Array.getElem?_eq_some_iff.mp here
    exact ⟨by omega, by simp [here]⟩
  · rintro ⟨inside, stranger⟩
    have held : row < slots.size := by omega
    have present := Array.getElem?_eq_getElem held
    cases slot : slots[row] with
    | none => rw [present, slot]
    | some list => exact absurd ⟨list, by rw [present, slot]⟩ stranger

theorem mem_slotClaims {merger : Merger} {lists : List (List Nat)} {slots : Array (Option Nat)}
    (h : merger.scatter lists = .ok slots) {excluded row code : Nat} :
    (⟨row, code⟩ : Claim) ∈
        slots.toList.zipIdx.filterMap (claimOfSlot excluded (lists.length - 1)) ↔
      Outside lists merger.rows excluded row code := by
  rw [mem_claimOfSlot, scatter_free h]
  simp only [(scatter_eq_ok h).2, and_assoc]
  rfl

section Disjoint

variable {lists : List (List Nat)} {rows : Nat} (disjoint : DisjointLists lists rows)

include disjoint

theorem exists_outside_iff {excluded row : Nat} :
    (∃ code, Outside lists rows excluded row code) ↔
      row < rows ∧ row ∉ lists.getD excluded [] := by
  constructor
  · rintro ⟨code, ⟨i, other, listed, _⟩ | ⟨inRow, absent, _⟩⟩
    · exact ⟨disjoint.row_lt listed, fun again => other (disjoint.unique listed again)⟩
    · exact ⟨inRow, fun again => absent (DisjointLists.mem_flatten_iff.mpr ⟨_, again⟩)⟩
  · rintro ⟨inRow, absent⟩
    by_cases named : row ∈ lists.flatten
    · obtain ⟨i, listed⟩ := DisjointLists.mem_flatten_iff.mp named
      have other : i ≠ excluded := by
        rintro rfl
        exact absent listed
      exact ⟨_, .inl ⟨i, other, listed, rfl⟩⟩
    · exact ⟨_, .inr ⟨inRow, named, rfl⟩⟩

/-- If every row is in a list, the other lists name all rows outside the excluded one. -/
theorem mem_headClaims (full : total (lists.map List.length) = rows) {excluded row code : Nat} :
    (⟨row, code⟩ : Claim) ∈ (mergeHeads ((claims lists).eraseIdx excluded)).map
        (fun claim => { claim with list := shift excluded claim.list }) ↔
      Outside lists rows excluded row code := by
  constructor
  · intro member
    obtain ⟨claim, listed, same⟩ := List.mem_map.mp member
    cases same
    obtain ⟨other, here⟩ := mem_claims_eraseIdx.mp (mem_mergeHeads.mp listed)
    exact .inl ⟨claim.list, other, here, rfl⟩
  · rintro (⟨i, other, here, rfl⟩ | ⟨inside, stranger, _⟩)
    · refine List.mem_map.mpr ⟨⟨row, i⟩, ?_, rfl⟩
      exact mem_mergeHeads.mpr (mem_claims_eraseIdx.mpr ⟨other, here⟩)
    · exact absurd (disjoint.total_eq_iff.mp full row inside) stranger

/-- A merge that excludes one of some disjoint lists lists all rows outside that list. -/
theorem insertExcluding_eq_ok {strategy : MergeStrategy} {excluded : Nat} {merged : MergedRows}
    (h : insertExcluding ⟨strategy, rows⟩ lists excluded = .ok merged) :
    ∃ codes, merged.Collects lists.length (Outside lists rows excluded) codes := by
  simp only [insertExcluding, guard_eq_ok_iff] at h
  obtain ⟨_, _, h⟩ := h
  split at h
  next => cases h
  next claims merging =>
    obtain ⟨_, h⟩ := guard_eq_ok_iff.mp h
    refine ⟨_, (finish_eq_ok h).congr fun row code => ?_⟩
    split at merging
    next full =>
      cases merging
      exact mem_headClaims disjoint full.1
    next =>
      obtain ⟨slots, marked, rfl⟩ := map_eq_ok merging
      exact mem_slotClaims marked

end Disjoint

end Merger

end PackedMatrix
