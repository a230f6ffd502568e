import PackedMatrix.Proofs.DisjointMerges

namespace PackedMatrix

namespace Merger

/-- The word of a slot that no list claims. -/
def unset : UInt32 := 0xffffffff

/-- The word of a slot that the excluded list claims. -/
def excludedMark : UInt32 := 0xfffffffe

/-- What a list writes into its slots: the low word of its number, unless it is excluded. -/
def mark (excluded? : Option Nat) (list : Nat) : UInt32 :=
  if excluded? = some list then excludedMark else UInt32.ofNat list

/-- Marks each claimed row with the word of its list. -/
def markWords (excluded? : Option Nat) (words : Array UInt32) :
    List Claim → Except PackError (Array UInt32)
  | [] => .ok words
  | claim :: rest =>
    match words[claim.row]? with
    | none => .error (.invariant (.mergedRow claim.row words.size))
    | some word =>
      if word ≠ unset then .error (.invariant (.mergedTwice claim.row))
      else markWords excluded? (words.setIfInBounds claim.row (mark excluded? claim.list)) rest

/-- The words of the slots of all rows. -/
def scatterWords (merger : Merger) (excluded? : Option Nat) (lists : List (List Nat)) :
    Except PackError (Array UInt32) :=
  markWords excluded? (Array.replicate merger.rows unset) (claims lists).flatten

/-- What the word of a slot says about its row in a merge of all lists. -/
def claimOfWord (slot : UInt32 × Nat) : Option Claim :=
  if slot.1 = unset then none else some ⟨slot.2, slot.1.toNat⟩

/-- What the word of a slot says about its row in a merge that leaves a list out. -/
def claimOutside (excluded zeroCode : Nat) (slot : UInt32 × Nat) : Option Claim :=
  if slot.1 = excludedMark then none
  else if slot.1 = unset then some ⟨slot.2, zeroCode⟩
  else some ⟨slot.2, shift excluded slot.1.toNat⟩

variable {excluded? : Option Nat} {list : Nat}

theorem mark_eq_ofNat (other : excluded? ≠ some list) :
    mark excluded? list = UInt32.ofNat list := if_neg other

theorem toNat_mark (bound : list < maxIndex) (other : excluded? ≠ some list) :
    (mark excluded? list).toNat = list := by
  rw [mark_eq_ofNat other, UInt32.toNat_ofNat_of_lt' (Nat.lt_succ_of_lt bound)]

theorem mark_ne_unset (bound : list < maxIndex) : mark excluded? list ≠ unset := by
  by_cases out : excluded? = some list
  · rw [mark, if_pos out]
    decide
  · intro same
    have value := toNat_mark bound out
    rw [same] at value
    exact Nat.lt_irrefl _ (value ▸ bound)

/-- With one list less than there are words left, the mark of the excluded list is its own. -/
theorem mark_eq_excludedMark_iff (bound : list < maxIndex - 1) :
    mark excluded? list = excludedMark ↔ excluded? = some list := by
  refine ⟨fun same => ?_, fun out => if_pos out⟩
  by_contra other
  have value := toNat_mark (Nat.lt_of_lt_pred bound) other
  rw [same] at value
  exact Nat.lt_irrefl _ (value ▸ bound)

/-- From that number on the marks collide. -/
example : mark (some 0) (maxIndex - 1) = mark (some 0) 0 ∧ mark none maxIndex = unset := by decide

/-- The word of a slot. -/
def slotWord (excluded? : Option Nat) : Option Nat → UInt32
  | none => unset
  | some list => mark excluded? list

/-- Words are marked as slots are, and fail where these fail, if no mark is that of a free slot. -/
theorem markWords_map {slots : Array (Option Nat)} {claims : List Claim}
    (held : ∀ (row list : Nat), slots[row]? = some (some list) → list < maxIndex)
    (small : ∀ claim ∈ claims, claim.list < maxIndex) :
    markWords excluded? (slots.map (slotWord excluded?)) claims =
      (markSlots slots claims).map (Array.map (slotWord excluded?)) := by
  induction claims generalizing slots with
  | nil => rfl
  | cons claim rest ih =>
    obtain ⟨first, later⟩ := List.forall_mem_cons.mp small
    rw [markWords, markSlots, Array.getElem?_map]
    cases here : slots[claim.row]? with
    | none => rw [Array.size_map]; rfl
    | some slot =>
      cases slot with
      | some other =>
        have taken : slotWord excluded? (some other) ≠ unset := mark_ne_unset (held _ _ here)
        simp only [Option.map_some, if_pos taken]
        rfl
      | none =>
        have written : (slots.map (slotWord excluded?)).setIfInBounds claim.row
            (mark excluded? claim.list) =
              (slots.setIfInBounds claim.row (some claim.list)).map (slotWord excluded?) := by
          rw [Array.map_setIfInBounds]
          rfl
        simp only [Option.map_some, slotWord, ne_eq, not_true_eq_false, ↓reduceIte]
        rw [written, ih _ later]
        intro row list found
        rw [Array.getElem?_setIfInBounds] at found
        split at found
        next =>
          split at found
          next =>
            cases found
            exact first
          next => cases found
        next => exact held row list found

section Scatter

variable {lists : List (List Nat)} (few : lists.length < maxIndex - 1) (merger : Merger)

include few

theorem scatterWords_eq (excluded? : Option Nat) : merger.scatterWords excluded? lists =
    (merger.scatter lists).map (Array.map (slotWord excluded?)) := by
  have blank : Array.replicate merger.rows unset =
      (Array.replicate merger.rows none).map (slotWord excluded?) := by
    rw [Array.map_replicate]
    rfl
  rw [scatterWords, scatter, blank]
  refine markWords_map (fun row list found => ?_) fun claim member => ?_
  · simp [Array.getElem?_replicate] at found
  · have named := DisjointLists.lt_of_mem (mem_claims.mp member)
    omega

/-- What slots say through their words is what they say themselves. -/
theorem map_scatterWords {excluded? : Option Nat} {read : UInt32 × Nat → Option Claim}
    {claim? : Option Nat × Nat → Option Claim}
    (free : ∀ row, read (unset, row) = claim? (none, row))
    (held : ∀ list row, list < lists.length →
      read (mark excluded? list, row) = claim? (some list, row)) :
    (merger.scatterWords excluded? lists).map (·.toList.zipIdx.filterMap read) =
      (merger.scatter lists).map (·.toList.zipIdx.filterMap claim?) := by
  rw [scatterWords_eq few]
  cases scattered : merger.scatter lists with
  | error error => rfl
  | ok slots =>
    refine congrArg Except.ok ?_
    simp only [Array.toList_map, List.zipIdx_map, List.filterMap_map]
    refine List.filterMap_congr fun slot member => ?_
    obtain ⟨slot, row⟩ := slot
    have known : slots[row]? = some slot := by
      simpa [List.mem_zipIdx_iff_getElem?] using member
    cases slot with
    | none => exact free row
    | some list =>
      have listed := ((scatter_eq_ok scattered).2 row list).mp known
      exact held list row (DisjointLists.lt_of_mem listed)

/-- Slots of 32-bit words with two of these set apart give the claims that free slots and numbers of
lists give, and fail with the same error, as long as no number of a list is one of the two. -/
theorem scatterWords_agree :
    (merger.scatterWords none lists).map (·.toList.zipIdx.filterMap claimOfWord) =
      (merger.scatter lists).map
        (·.toList.zipIdx.filterMap fun slot => slot.1.map fun list => ⟨slot.2, list⟩) ∧
    ∀ excluded zeroCode : Nat,
      (merger.scatterWords (some excluded) lists).map
          (·.toList.zipIdx.filterMap (claimOutside excluded zeroCode)) =
        (merger.scatter lists).map (·.toList.zipIdx.filterMap (claimOfSlot excluded zeroCode)) := by
  refine ⟨map_scatterWords few merger (fun _ => rfl) fun list row named => ?_,
    fun excluded zeroCode => map_scatterWords few merger (fun _ => rfl) fun list row named => ?_⟩
  · have bound : list < maxIndex := by omega
    have value := toNat_mark bound (nofun : none ≠ some list)
    simp only [claimOfWord, if_neg (mark_ne_unset bound), value, Option.map_some]
  · have bound : list < maxIndex - 1 := by omega
    by_cases out : list = excluded
    · have marked : mark (some excluded) list = excludedMark := if_pos (by rw [out])
      simp only [claimOutside, claimOfSlot, if_pos marked, if_pos out]
    · have other : some excluded ≠ some list := fun same => out (Option.some.inj same).symm
      have apart : mark (some excluded) list ≠ excludedMark :=
        fun same => other ((mark_eq_excludedMark_iff bound).mp same)
      have value := toNat_mark (Nat.lt_of_lt_pred bound) other
      simp only [claimOutside, claimOfSlot, if_neg apart, if_neg out, value,
        if_neg (mark_ne_unset (Nat.lt_of_lt_pred bound))]

end Scatter

end Merger

end PackedMatrix
