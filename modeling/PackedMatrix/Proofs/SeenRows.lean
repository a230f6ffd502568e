import PackedMatrix.Bitmap.SeenRows
import PackedMatrix.Proofs.CodeMapReads

namespace PackedMatrix

namespace SeenRows

variable {rows : Nat} {seen : SeenRows rows}

/-- A word has a bit in common with the mask of a place exactly if its bit there is set. -/
theorem and_mask_ne_zero_iff (word : UInt64) {place : Nat} (inside : place < 64) :
    (word &&& (1 <<< UInt64.ofNat place) != 0) = true ↔ word.toNat.testBit place = true := by
  have common : ∀ other, (word &&& (1 <<< UInt64.ofNat place)).toNat.testBit other =
      (word.toNat.testBit other && decide (place = other)) := by
    intro other
    rw [UInt64.toNat_and, Nat.testBit_and, CodeMap.testBit_mask inside]
  rw [bne_iff_ne]
  cases bit : word.toNat.testBit place with
  | false =>
    refine iff_of_false (fun some_ => some_ (UInt64.toNat_inj.mp ?_)) Bool.false_ne_true
    refine Nat.eq_of_testBit_eq fun other => ?_
    rw [common, UInt64.toNat_zero, Nat.zero_testBit]
    by_cases same : place = other
    · rw [← same, bit, Bool.false_and]
    · rw [decide_eq_false same, Bool.and_false]
  | true =>
    refine iff_of_true (fun none_ => ?_) rfl
    have here := common place
    simp [none_, bit] at here

theorem has_iff {row : Fin rows} :
    seen.has row = true ↔ (seen.word row).toNat.testBit (row % 64) = true :=
  and_mask_ne_zero_iff _ (Nat.mod_lt _ (by decide))

theorem has_start (row : Fin rows) : (start rows).has row = false := by
  rw [← Bool.not_eq_true, has_iff]
  simp [word, start]

/-- Adding a row sets its bit and keeps those of all other rows, in its word and in others. -/
theorem has_add_iff {row other : Fin rows} :
    (seen.add row).has other = true ↔ other = row ∨ seen.has other = true := by
  have inside : ∀ row : Fin rows, row.val % 64 < 64 := fun row => Nat.mod_lt _ (by decide)
  rw [has_iff, has_iff]
  by_cases sameWord : row.val / 64 = other.val / 64
  · have changed : (seen.add row).word other =
        CodeMap.putBit (seen.word other) (row % 64) true := by
      simp only [word, add, ← sameWord, Array.getElem_set_self]
    rw [changed, CodeMap.testBit_putBit _ _ (inside row) (inside other), Fin.ext_iff]
    by_cases sameBit : row.val % 64 = other.val % 64
    · rw [if_pos sameBit]
      exact iff_of_true rfl (Or.inl (by omega))
    · rw [if_neg sameBit]
      exact ⟨Or.inr, fun either => either.resolve_left (by omega)⟩
  · have kept : (seen.add row).word other = seen.word other := by
      simp only [word, add]
      exact Array.getElem_set_ne _ _ sameWord
    rw [kept, Fin.ext_iff]
    exact ⟨Or.inr, fun either => either.resolve_left (by omega)⟩

instance : Membership Nat (SeenRows rows) :=
  ⟨fun seen row => ∃ inside : row < rows, seen.has ⟨row, inside⟩ = true⟩

theorem mem_iff_has {row : Nat} (inside : row < rows) :
    row ∈ seen ↔ seen.has ⟨row, inside⟩ = true :=
  ⟨fun ⟨_, known⟩ => known, fun known => ⟨inside, known⟩⟩

theorem not_mem_start (row : Nat) : row ∉ start rows := by
  rintro ⟨inside, known⟩
  rw [has_start] at known
  cases known

theorem mem_add_iff {row other : Nat} (inside : row < rows) :
    other ∈ seen.add ⟨row, inside⟩ ↔ other = row ∨ other ∈ seen := by
  by_cases inside' : other < rows
  · rw [mem_iff_has inside', mem_iff_has inside', has_add_iff, Fin.mk.injEq]
  · have outside : ∀ seen : SeenRows rows, other ∉ seen := fun _ ⟨bound, _⟩ => inside' bound
    refine iff_of_false (outside _) fun either => ?_
    rcases either with rfl | known
    · exact inside' inside
    · exact outside seen known

end SeenRows

end PackedMatrix
