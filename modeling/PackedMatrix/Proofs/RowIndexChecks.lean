import PackedMatrix.Proofs.RowIndexReads

namespace PackedMatrix

namespace RowIndex

variable {index : RowIndex}

/-- The entries from `entry` to the last one lie at these cursors, where anchors expect them. -/
structure Passes (index : RowIndex) (entry : Nat) (cursors : List GapCursor) : Prop where
  count : entry + cursors.length = index.length
  agrees : ∀ i (inside : i < cursors.length), index.anchorAgrees (entry + i) cursors[i] = true
  step : ∀ i (inside : i + 1 < cursors.length), index.gaps.step cursors[i] = .ok cursors[i + 1]

theorem Passes.cons {entry : Nat} {cursor next : GapCursor} {later : List GapCursor}
    (passes : index.Passes (entry + 1) (next :: later))
    (agrees : index.anchorAgrees entry cursor = true)
    (step : index.gaps.step cursor = .ok next) : index.Passes entry (cursor :: next :: later) := by
  refine ⟨?_, ?_, ?_⟩
  · have count := passes.count
    simp only [List.length_cons] at count ⊢
    omega
  · intro i inside
    cases i with
    | zero => exact agrees
    | succ i =>
      have here := passes.agrees i (by simpa using inside)
      rwa [show entry + 1 + i = entry + (i + 1) by omega] at here
  · intro i inside
    cases i with
    | zero => exact step
    | succ i => exact passes.step i (by simpa using inside)

/-- The stream position behind an entry's gap, and the start for no entry. -/
def positionAt (cursors : List GapCursor) (entry : Nat) : Nat :=
  (cursors[entry]?.map GapCursor.position).getD 0

/-- A walk that is accepted passes every entry that is left and ends behind the last word. -/
theorem exists_passes {entry : Nat} {cursor : GapCursor} (left : entry < index.length)
    (h : index.checkFrom entry cursor = .ok ()) :
    ∃ later, index.Passes entry (cursor :: later) ∧
      positionAt (cursor :: later) later.length = index.gaps.length := by
  induction rest : index.length - entry generalizing entry cursor with
  | zero => omega
  | succ rest ih =>
    rw [checkFrom] at h
    split at h
    next => cases h
    next agrees =>
      have agrees : index.anchorAgrees entry cursor = true := by simpa using agrees
      split at h
      next more =>
        split at h
        next => cases h
        next => cases h
        next next step =>
          obtain ⟨later, passes, ends⟩ := ih more h (by omega)
          exact ⟨next :: later, passes.cons agrees step, ends⟩
      next last =>
        split at h
        next => cases h
        next ends =>
          refine ⟨[], ⟨?_, ?_, ?_⟩, by simpa [positionAt] using ends⟩
          · simp only [List.length_singleton]
            omega
          · intro i inside
            obtain rfl : i = 0 := by simpa using inside
            exact agrees
          · intro i inside
            simp at inside

/-- An anchor that agrees with a cursor is the one of its entry. -/
theorem anchor_of_agrees {i : Nat} {cursor : GapCursor}
    (agrees : index.anchorAgrees (i * anchorInterval) cursor = true) :
    (index.anchors.getD i default).row.toNat = cursor.row ∧
      (index.anchors.getD i default).position.toNat = cursor.position := by
  have due : i * anchorInterval % anchorInterval = 0 := Nat.mul_mod_left _ _
  have place : i * anchorInterval / anchorInterval = i := Nat.mul_div_cancel _ (by decide)
  rw [anchorAgrees, if_pos due, place] at agrees
  cases found : index.anchors[i]? with
  | none => simp [found] at agrees
  | some anchor =>
    rw [Array.getD_eq_getD_getElem?, found, Option.getD_some]
    simpa [found] using agrees

/-- If all entries are passed from the first one on, the index lists their rows. -/
theorem Passes.lists {cursors : List GapCursor} (passes : index.Passes 0 cursors)
    (start : positionAt cursors 0 = 0) (anchors : index.anchors.size = anchorsFor index.length) :
    index.Lists (cursors.map GapCursor.row) (positionAt cursors) := by
  have length : index.length = cursors.length := by
    rw [← passes.count, Nat.zero_add]
  have position : ∀ i (inside : i < cursors.length),
      positionAt cursors i = cursors[i].position := by
    intro i inside
    rw [positionAt, List.getElem?_eq_getElem inside, Option.map_some, Option.getD_some]
  refine ⟨?_, ?_, ?_, start, ?_⟩
  · rw [List.length_map, length]
  · rw [List.length_map, anchors, length]
  · intro i inside
    have within : i * anchorInterval < cursors.length := by rwa [List.length_map] at inside
    have agrees := passes.agrees _ within
    rw [Nat.zero_add] at agrees
    rw [List.getElem_map, position _ within]
    exact anchor_of_agrees agrees
  · intro i inside
    have within : i + 1 < cursors.length := by rwa [List.length_map] at inside
    rw [List.getElem_map, List.getElem_map, position _ within, position _ (by omega)]
    exact passes.step i within

/-- An index that passes the check lists some rows, and no word is left behind the last one. -/
theorem exists_lists (h : index.check = .ok ()) :
    ∃ rows place, index.Lists rows place ∧ place (rows.length - 1) = index.gaps.length := by
  unfold check at h
  split at h
  next => cases h
  next count =>
    have count : index.anchors.size = anchorsFor index.length := by simpa using count
    rcases Nat.eq_zero_or_pos index.length with nothing | some_
    · have unanchored : index.anchors.size = anchorsFor 0 := by rw [count, nothing]
      have absent : index.anchors[0]? = none := Array.getElem?_eq_none (Nat.le_of_eq unanchored)
      rw [absent] at h
      have empty : index.gaps.length = 0 := by simpa using h
      refine ⟨[], fun _ => 0, ⟨nothing, unanchored, ?_, rfl, ?_⟩, empty.symm⟩
      · intro i inside
        simp at inside
      · intro i inside
        simp at inside
    · have filled : 0 < index.anchors.size := by
        rwa [count, lt_anchorsFor_iff, Nat.zero_mul]
      rw [Array.getElem?_eq_getElem filled] at h
      obtain ⟨later, passes, ends⟩ := exists_passes some_ h
      refine ⟨_, _, passes.lists rfl count, ?_⟩
      rwa [List.length_map, List.length_cons, Nat.add_sub_cancel]

namespace Lists

variable {rows : List Nat} {place : Nat → Nat}

theorem agrees (lists : index.Lists rows place) {i : Nat} (inside : i < rows.length) :
    index.anchorAgrees i ⟨rows[i], place i⟩ = true := by
  unfold anchorAgrees
  split
  next due =>
    have entry : i / anchorInterval * anchorInterval = i := Nat.div_mul_cancel
      (Nat.dvd_of_mod_eq_zero due)
    obtain ⟨anchor, found, row, position⟩ := lists.exists_anchor (i := i / anchorInterval)
      (by rwa [entry])
    simp only [entry] at row position
    simp [found, row, position]
  next => rfl

/-- The walk through an index that lists its rows is accepted if no word is left behind it. -/
theorem checkFrom_eq (lists : index.Lists rows place)
    (ends : place (rows.length - 1) = index.gaps.length) {i : Nat} (inside : i < rows.length) :
    index.checkFrom i ⟨rows[i], place i⟩ = .ok () := by
  have length := lists.length
  induction rest : rows.length - i generalizing i with
  | zero => omega
  | succ rest ih =>
    rw [checkFrom, if_neg (by simp [lists.agrees inside])]
    by_cases more : i + 1 < rows.length
    · rw [if_pos (by omega), lists.step i more]
      exact ih more (by omega)
    · have last : i = rows.length - 1 := by omega
      have here : place i = index.gaps.length := by rw [last, ends]
      rw [if_neg (by omega), if_neg (by simp [here])]

theorem check_eq (lists : index.Lists rows place)
    (ends : place (rows.length - 1) = index.gaps.length) : index.check = .ok () := by
  have count := lists.anchorCount
  rw [check, if_neg (by simp [lists.anchorCount, lists.length])]
  cases rows with
  | nil =>
    have none : index.anchors[0]? = none := Array.getElem?_eq_none (Nat.le_of_eq count)
    have empty : index.gaps.length = 0 := ends.symm.trans lists.start
    simp [none, empty]
  | cons first rest =>
    obtain ⟨anchor, found, row, _⟩ := lists.exists_anchor (i := 0) (by simp)
    simp only [Nat.zero_mul, List.getElem_cons_zero] at row
    have walked := lists.checkFrom_eq ends (show 0 < (first :: rest).length by simp)
    rw [lists.start, List.getElem_cons_zero] at walked
    simp only [found, row, walked]

end Lists

theorem check_ofRows {rows : List Nat} (sorted : rows.Pairwise (· < ·))
    (small : ∀ row ∈ rows, row ≤ maxIndex) : (ofRows rows).check = .ok () := by
  obtain ⟨gaps, made, some_, length, reads⟩ := ofRows_eq rows
  rw [made]
  refine (lists_of_words reads some_ sorted small).check_eq ?_
  rw [place, length, ← Segments.offset_length, length_gapLists]

end RowIndex

end PackedMatrix
