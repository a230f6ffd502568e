import PackedMatrix.Proofs.BitmapGroups
import PackedMatrix.Proofs.MergeStrategies

namespace PackedMatrix

namespace MovedDictionary

variable {moved : MovedDictionary}

theorem remap_of_kept (h : moved.moved = none) (old : Nat) : moved.remap old = old := by
  rw [remap, h]

/-- Tuples other than the moved one go where a merge without its list puts their codes. -/
theorem remap_of_moved {place : Nat} (h : moved.moved = some place) (old : Nat) :
    moved.remap old =
      if old = place then moved.dictionary.tuples - 1 else Merger.shift place old := by
  rw [remap, h]
  rfl

end MovedDictionary

namespace Dictionary

namespace Arranged

variable {tuples : List (List Cell)} {width frequent zeros listed : Nat} {moved : MovedDictionary}
  (arranged : Arranged tuples width frequent zeros listed moved) (positive : 0 < width)
  (inside : frequent < tuples.length)

include arranged

theorem zeroCode_isSome : moved.zeroCode.isSome ↔ zeros > 0 := by
  cases arranged with
  | zeroLast fewer holds kept zero =>
    rw [zero]
    exact iff_of_true rfl (Nat.zero_lt_of_lt fewer)
  | frequentLast most holds place zero =>
    rw [zero]
    split
    next some_ => exact iff_of_true rfl some_
    next none => exact iff_of_false (by simp) none

include positive inside

theorem tuples_eq : moved.dictionary.tuples = tuples.length + if zeros > 0 then 1 else 0 := by
  cases arranged with
  | zeroLast fewer holds kept zero =>
    rw [holds.tuples_eq positive, List.length_append, if_pos (Nat.zero_lt_of_lt fewer),
      List.length_singleton]
  | frequentLast most holds place zero =>
    rw [holds.tuples_eq positive, length_movedTuples inside]

theorem le_tuples : tuples.length ≤ moved.dictionary.tuples := by
  rw [arranged.tuples_eq positive inside]
  exact Nat.le_add_right _ _

theorem remap_lt {old : Nat} (bound : old < tuples.length) :
    moved.remap old < moved.dictionary.tuples := by
  have more := arranged.le_tuples positive inside
  cases arranged with
  | zeroLast fewer holds kept zero =>
    rw [MovedDictionary.remap_of_kept kept]
    exact Nat.lt_of_lt_of_le bound more
  | frequentLast most holds place zero =>
    rw [MovedDictionary.remap_of_moved place]
    split
    next => omega
    next other =>
      have less := Merger.shift_lt inside bound other
      omega

theorem remap_injective {a b : Nat} (boundA : a < tuples.length) (boundB : b < tuples.length)
    (same : moved.remap a = moved.remap b) : a = b := by
  have more := arranged.le_tuples positive inside
  cases arranged with
  | zeroLast fewer holds kept zero =>
    rwa [MovedDictionary.remap_of_kept kept, MovedDictionary.remap_of_kept kept] at same
  | frequentLast most holds place zero =>
    rw [MovedDictionary.remap_of_moved place, MovedDictionary.remap_of_moved place] at same
    split at same
    next hereA =>
      split at same
      next hereB => rw [hereA, hereB]
      next otherB =>
        have less := Merger.shift_lt inside boundB otherB
        omega
    next otherA =>
      split at same
      next hereB =>
        have less := Merger.shift_lt inside boundA otherA
        omega
      next otherB => exact Merger.shift_injective otherA otherB same

theorem tuple?_remap {old : Nat} (bound : old < tuples.length) :
    moved.dictionary.tuple? (moved.remap old) = some tuples[old] := by
  cases arranged with
  | zeroLast fewer holds kept zero =>
    refine holds.tuple?_of_getElem? ?_
    rw [MovedDictionary.remap_of_kept kept, List.getElem?_append_left bound,
      List.getElem?_eq_getElem bound]
  | frequentLast most holds place zero =>
    refine holds.tuple?_of_getElem? ?_
    rw [← List.getElem?_eq_getElem bound, MovedDictionary.remap_of_moved place]
    split
    next here =>
      subst here
      rw [holds.tuples_eq positive]
      exact getElem?_movedTuples_last inside
    next other => exact getElem?_movedTuples_shift inside bound other

/-- The zero tuple has a place that no former tuple has. -/
theorem tuple?_zeroCode {code : Nat} (coded : moved.zeroCode = some code) :
    moved.dictionary.tuple? code = some (List.replicate width Cell.zero) ∧
      ∀ old, old < tuples.length → moved.remap old ≠ code := by
  have count := arranged.tuples_eq positive inside
  cases arranged with
  | zeroLast fewer holds kept zero =>
    obtain rfl := Option.some.inj (zero.symm.trans coded)
    refine ⟨holds.tuple?_of_getElem? ?_, fun old bound => ?_⟩
    · rw [List.getElem?_append_right (Nat.le_refl _), Nat.sub_self]
      rfl
    · rw [MovedDictionary.remap_of_kept kept]
      exact Nat.ne_of_lt bound
  | frequentLast most holds place zero =>
    obtain ⟨some_, last⟩ := Option.ite_none_right_eq_some.mp (zero.symm.trans coded)
    obtain rfl := Option.some.inj last
    rw [if_pos some_] at count
    refine ⟨holds.tuple?_of_getElem? ?_, fun old bound => ?_⟩
    · exact getElem?_movedTuples_zero width inside some_
    · rw [MovedDictionary.remap_of_moved place]
      split
      next => omega
      next other => exact Nat.ne_of_lt (Merger.shift_lt inside bound other)

theorem tuple?_defaultCode : moved.dictionary.tuple? moved.defaultCode =
    some (if zeros ≤ listed then tuples[frequent] else List.replicate width Cell.zero) := by
  cases arranged with
  | zeroLast fewer holds kept zero =>
    refine holds.tuple?_of_getElem? ?_
    rw [MovedDictionary.defaultCode, holds.tuples_eq positive, ← List.getLast?_eq_getElem?,
      List.getLast?_append, List.getLast?_singleton, Option.some_or, if_neg (Nat.not_le.mpr fewer)]
  | frequentLast most holds place zero =>
    refine holds.tuple?_of_getElem? ?_
    rw [MovedDictionary.defaultCode, holds.tuples_eq positive, getElem?_movedTuples_last inside,
      List.getElem?_eq_getElem inside, if_pos most]

end Arranged

section Accepted

variable {bitmap : Bitmap} {columns : List Nat} {rows frequent : Nat} {moved : MovedDictionary}

/-- A dictionary of a bitmap over some columns can make any of its tuples the last one. -/
theorem exists_arranged (nonempty : columns ≠ []) {height : Nat}
    (valid : bitmap.WellFormed columns.length height) (rows : Nat)
    (inside : frequent < bitmap.tuples) :
    ∃ moved, (ofBitmap bitmap).moveFrequentToLast bitmap rows frequent = .ok moved ∧
      Arranged (tuplesOf bitmap) columns.length frequent (bitmap.zeros rows)
        (bitmap.list frequent).length moved := by
  have count := Group.tuples_ofBitmap valid nonempty
  obtain ⟨moved, moving⟩ := exists_moveFrequentToLast bitmap rows (count ▸ inside)
  exact ⟨moved, moving, (arranged_of_moveFrequentToLast (holds_ofBitmap valid)
    (List.length_pos_iff.mpr nonempty) moving).2⟩

/-- The codes of a merge without one list are less than the place of its tuple. -/
theorem Arranged.lt_defaultCode_of_outside (nonempty : columns ≠ [])
    (valid : bitmap.WellFormed columns.length rows) {listed : Nat}
    (arranged : Arranged (tuplesOf bitmap) columns.length frequent (bitmap.zeros rows) listed
      moved) (inside : frequent < bitmap.tuples) {row code : Nat}
    (outside : Merger.Outside bitmap.lists rows frequent row code) : code < moved.defaultCode := by
  have count := arranged.tuples_eq (List.length_pos_iff.mpr nonempty) (by rwa [length_tuplesOf])
  rw [length_tuplesOf] at count
  rw [MovedDictionary.defaultCode, count]
  rcases outside with ⟨i, other, member, rfl⟩ | ⟨inRow, absent, rfl⟩
  · have less := Merger.shift_lt inside (Bitmap.lt_tuples_of_mem_list member) other
    omega
  · rw [if_pos (Group.zeros_pos valid inRow absent), ← Bitmap.tuples]
    omega

end Accepted

end Dictionary

theorem Group.wellFormed_repeatedTuples : repeatedTuples.WellFormed 2 6 := by
  refine ⟨rfl, rfl, ?_, ?_, ?_, ?_⟩ <;> simp [repeatedTuples]

/-- Making a tuple the last one loses none: each tuple is found at a place of its own, the zero
tuple at another one exactly if some rows are zero, and the default place is that of the tuple
unless more rows are zero. -/
theorem Dictionary.moveFrequentToLast_keeps_tuples {bitmap : Bitmap} {columns : List Nat}
    {height rows frequent : Nat} (accepted : bitmap.validate columns height = .ok ())
    (nonempty : columns ≠ []) (inside : frequent < bitmap.tuples) :
    ∃ moved, (ofBitmap bitmap).moveFrequentToLast bitmap rows frequent = .ok moved ∧
      moved.dictionary.tuples = bitmap.tuples + (if bitmap.zeros rows > 0 then 1 else 0) ∧
      (∀ a b, a < bitmap.tuples → b < bitmap.tuples → moved.remap a = moved.remap b → a = b) ∧
      (∀ old, old < bitmap.tuples → moved.remap old < moved.dictionary.tuples ∧
        moved.dictionary.tuple? (moved.remap old) = some (bitmap.tuple old)) ∧
      (moved.zeroCode.isSome ↔ bitmap.zeros rows > 0) ∧
      (∀ code, moved.zeroCode = some code →
        moved.dictionary.tuple? code = some (List.replicate columns.length Cell.zero) ∧
          ∀ old, old < bitmap.tuples → moved.remap old ≠ code) ∧
      moved.dictionary.tuple? moved.defaultCode =
        some (if bitmap.zeros rows ≤ (bitmap.list frequent).length then bitmap.tuple frequent
          else List.replicate columns.length Cell.zero) := by
  have filled : bitmap.lists ≠ [] := List.length_pos_iff.mp (Nat.zero_lt_of_lt inside)
  have valid := (Bitmap.validate_eq_ok_iff.mp accepted).2 filled
  have positive : 0 < columns.length := List.length_pos_iff.mpr nonempty
  obtain ⟨moved, moving, arranged⟩ := exists_arranged nonempty valid rows inside
  have count := length_tuplesOf bitmap
  have named : frequent < (tuplesOf bitmap).length := count ▸ inside
  refine ⟨moved, moving, ?_, ?_, ?_, arranged.zeroCode_isSome, ?_, ?_⟩
  · rw [arranged.tuples_eq positive named, count]
  · intro a b boundA boundB same
    exact arranged.remap_injective positive named (count ▸ boundA) (count ▸ boundB) same
  · intro old bound
    have bound : old < (tuplesOf bitmap).length := count ▸ bound
    refine ⟨arranged.remap_lt positive named bound, ?_⟩
    rw [arranged.tuple?_remap positive named bound, getElem_tuplesOf]
  · intro code coded
    have zero := arranged.tuple?_zeroCode positive named coded
    rwa [count] at zero
  · rw [arranged.tuple?_defaultCode positive named, getElem_tuplesOf]

theorem Dictionary.moveFrequentToLast_keeps_tuples_asManyZeros :
    Group.repeatedTuples.zeros 8 = (Group.repeatedTuples.list 1).length ∧
      ∃ moved,
        (ofBitmap Group.repeatedTuples).moveFrequentToLast Group.repeatedTuples 8 1 = .ok moved ∧
        moved.dictionary.tuples = 4 ∧ (List.range 3).map moved.remap = [0, 3, 1] ∧
        moved.zeroCode = some 2 ∧
        moved.dictionary.tuple? 1 = some (Group.repeatedTuples.tuple 2) ∧
        moved.dictionary.tuple? 3 = some [⟨0x3ff0000000000000⟩, ⟨0x8000000000000000⟩] := by
  obtain ⟨moved, moving, count, _, places, _, _, last⟩ :=
    @moveFrequentToLast_keeps_tuples Group.repeatedTuples [1, 3] 6 8 1
      Group.wellFormed_repeatedTuples.validate (by decide) (by decide)
  have made : (ofBitmap Group.repeatedTuples).moveFrequentToLast Group.repeatedTuples 8 1 =
      .ok ⟨⟨#[⟨0⟩, ⟨0⟩, ⟨0x3ff0000000000000⟩, ⟨0x8000000000000000⟩, ⟨0⟩, ⟨0⟩,
        ⟨0x3ff0000000000000⟩, ⟨0x8000000000000000⟩], 2⟩, some 1, some 2⟩ := by decide +kernel
  obtain rfl := Except.ok.inj (moving.symm.trans made)
  exact ⟨by decide, _, moving, count, by decide, rfl, (places 2 (by decide)).2, last⟩

/-- Rows outside a list that is no shorter than the zero rows are coded by the places of their
tuples once the tuple of the list was moved behind them. -/
theorem Merger.insertExcluding_codes_moved {bitmap : Bitmap} {columns : List Nat}
    {rows frequent : Nat} (accepted : bitmap.validate columns rows = .ok ())
    (nonempty : columns ≠ []) (short : rows < maxIndex) (inside : frequent < bitmap.tuples)
    (most : bitmap.zeros rows ≤ (bitmap.list frequent).length) :
    ∃ moved merged,
      (Dictionary.ofBitmap bitmap).moveFrequentToLast bitmap rows frequent = .ok moved ∧
      (∀ strategy, insertExcluding ⟨strategy, rows⟩ bitmap.lists frequent = .ok merged) ∧
      merged.rows.toList.Pairwise (· < ·) ∧
      (∀ row, row ∈ merged.rows.toList ↔ row < rows ∧ row ∉ bitmap.list frequent) ∧
      merged.codes.length = merged.rows.size ∧
      (∀ i row, merged.rows[i]? = some row → ∃ code, merged.codes.get? i = some code ∧
        code < moved.defaultCode ∧
          moved.dictionary.tuple? code = some (bitmap.rowTuple row)) ∧
      moved.dictionary.tuple? moved.defaultCode = some (bitmap.tuple frequent) := by
  have filled : bitmap.lists ≠ [] := List.length_pos_iff.mp (Nat.zero_lt_of_lt inside)
  have valid := (Bitmap.validate_eq_ok_iff.mp accepted).2 filled
  obtain ⟨moved, moving, arranged⟩ := Dictionary.exists_arranged nonempty valid rows inside
  obtain ⟨merged, codes, made, collects⟩ := exists_insertExcluding_of_both valid.disjoint inside
  obtain ⟨_, _, holds⟩ := Group.moved_bounds nonempty valid most moving
  have few : bitmap.tuples ≤ UInt32.size :=
    Nat.le_of_lt (valid.tuples_lt_size (Nat.le_of_lt short))
  refine ⟨moved, merged, moving, made, collects.increasing, ?_, collects.length_codes, ?_, ?_⟩
  · exact fun row => collects.mem_rows_iff.trans (exists_outside_iff valid.disjoint)
  · intro i row here
    obtain ⟨code, stored, outside⟩ := collects.exists_code few
      (fun row code => Group.lt_of_outside inside) here
    refine ⟨code, stored, arranged.lt_defaultCode_of_outside nonempty valid inside outside, ?_⟩
    rw [Bitmap.rowTuple, valid.width]
    exact holds.tuple?_of_getElem? (Group.getElem?_movedTuples_outside valid inside outside)
  · rw [arranged.tuple?_defaultCode (List.length_pos_iff.mpr nonempty)
      (by rwa [Dictionary.length_tuplesOf]), if_pos most, Dictionary.getElem_tuplesOf]

theorem Merger.insertExcluding_codes_moved_shortList :
    Group.repeatedTuples.zeros 6 = (Group.repeatedTuples.list 0).length ∧
      ∃ moved,
        (Dictionary.ofBitmap Group.repeatedTuples).moveFrequentToLast Group.repeatedTuples 6 0 =
          .ok moved ∧
        (∀ strategy, insertExcluding ⟨strategy, 6⟩ Group.repeatedTuples.lists 0 =
          .ok ⟨#[0, 2, 3, 4, 5], .byte #[0, 0, 1, 2, 0]⟩) ∧
        moved.defaultCode = 3 ∧
        moved.dictionary.tuple? 2 = some (Group.repeatedTuples.rowTuple 4) ∧
        moved.dictionary.tuple? 3 = some (Group.repeatedTuples.tuple 0) := by
  obtain ⟨moved, merged, moving, made, _, _, _, coded, last⟩ :=
    @insertExcluding_codes_moved Group.repeatedTuples [1, 3] 6 0
      Group.wellFormed_repeatedTuples.validate (by decide) (by decide) (by decide) (by decide)
  have slots : insertExcluding ⟨.slots, 6⟩ Group.repeatedTuples.lists 0 =
      .ok ⟨#[0, 2, 3, 4, 5], .byte #[0, 0, 1, 2, 0]⟩ := by decide +kernel
  obtain rfl := Except.ok.inj ((made .slots).symm.trans slots)
  have place : moved.defaultCode = 3 := by
    have found : ((Dictionary.ofBitmap Group.repeatedTuples).moveFrequentToLast
        Group.repeatedTuples 6 0).map MovedDictionary.defaultCode = .ok 3 := by decide +kernel
    rw [moving] at found
    exact Except.ok.inj found
  obtain ⟨code, stored, _, tuple⟩ := coded 3 4 rfl
  obtain rfl : 2 = code := Option.some.inj stored
  rw [place] at last
  exact ⟨by decide, moved, moving, made, place, tuple, last⟩

/-- A tuple without cells. -/
def zeroWidth : Bitmap := ⟨0, #[], [[0]]⟩

/-- A bitmap over no columns is accepted, but counting the tuples of its dictionary divides by
zero, so that none of them can be made the last one. -/
theorem Dictionary.moveFrequentToLast_ne_ok_zeroWidth :
    zeroWidth.validate [] 1 = .ok () ∧ 1 < maxIndex ∧ 0 < zeroWidth.tuples ∧
      zeroWidth.zeros 1 ≤ (zeroWidth.list 0).length ∧
      (ofBitmap zeroWidth).moveFrequentToLast zeroWidth 1 0 = .error (.fault .zeroDivisor) ∧
      ∀ moved, (ofBitmap zeroWidth).moveFrequentToLast zeroWidth 1 0 ≠ .ok moved := by
  have fit : zeroWidth.WellFormed 0 1 := by
    refine ⟨rfl, rfl, ?_, ?_, ?_, ?_⟩ <;> simp [zeroWidth]
  have failing : (ofBitmap zeroWidth).moveFrequentToLast zeroWidth 1 0 =
      .error (.fault .zeroDivisor) := rfl
  refine ⟨Bitmap.WellFormed.validate fit, by decide, by decide, by decide, failing,
    fun moved made => ?_⟩
  cases failing.symm.trans made

end PackedMatrix
