import PackedMatrix.Proofs.GroupCodes
import PackedMatrix.Proofs.StreamChecks

namespace PackedMatrix

namespace Group

variable {columns : List Nat} {rows : Nat} {dictionary : Dictionary}

/-- A row that several tuples of runs list is read from the first one and written by the last. -/
theorem finds_rle (wide : dictionary.width ≠ 0) {runs : RunStreams} {found : Nat → List Run}
    (spans : ∀ tuple, tuple < dictionary.tuples → runs.Spans rows tuple (found tuple)) :
    (⟨columns, rows, .rle dictionary runs⟩ : Group).Finds dictionary
      (fun row => (listing (fun tuple => (found tuple).flatMap Run.rows)
        dictionary.tuples row).head?)
      fun row => (listing (fun tuple => (found tuple).flatMap Run.rows)
        dictionary.tuples row).getLast? := by
  have first : ∀ row, RunStreams.tupleOf runs dictionary.tuples row =
      .ok (listing (fun tuple => (found tuple).flatMap Run.rows) dictionary.tuples row).head? := by
    intro row
    rw [RunStreams.tupleOf, head?_listing]
    apply RunStreams.findTuple_eq
    intro tuple named
    have span := spans tuple named
    exact ⟨_, span.runsOf, RunStreams.covers_eq span.ordered row⟩
  refine ⟨rfl, ?_, fun _ _ _ => lt_of_head?_listing, _,
    (placements_rle wide runs).trans (tupleRows_eq fun tuple named => ?_),
    placements_listed fun tuple named row member => ?_, fun row _ => last_tupleRows _ _ row⟩
  · intro row place _
    simp only [cellAt_rle wide, first, bind, Except.bind]
    cases (listing (fun tuple => (found tuple).flatMap Run.rows) dictionary.tuples row).head? with
    | none => rfl
    | some tuple => rfl
  · rw [(spans tuple named).runsOf]
    rfl
  · obtain ⟨run, listed, here⟩ := List.mem_flatMap.mp member
    have ends := (spans tuple named).inside run listed
    have below := (Run.mem_rows.mp here).2
    exact Nat.lt_of_lt_of_le below ends

section Offsets

variable {offsets : OffsetStreams} {blocks : Nat → List (List Nat)}
  (cuts : ∀ tuple, tuple < dictionary.tuples → offsets.Cut rows tuple (blocks tuple))

include cuts

/-- A row of a group of offsets is looked up without fault, and the last tuple that lists it is
written. -/
theorem finds_ole (wide : dictionary.width ≠ 0) (divides : offsets.blockSize ≠ 0) : ∃ found?,
    (∀ row, offsets.tupleOf dictionary.tuples row = .ok (found? row)) ∧
      (⟨columns, rows, .ole dictionary offsets⟩ : Group).Finds dictionary found?
        fun row => (listing (fun tuple => OffsetStreams.rowsFrom offsets.blockSize 0 (blocks tuple))
          dictionary.tuples row).getLast? := by
  have search : ∀ row, ∃ holds? : Nat → Bool, offsets.tupleOf dictionary.tuples row =
      .ok ((List.range' 0 dictionary.tuples).find? holds?) := by
    intro row
    refine ⟨fun tuple => (Search.find? (fun i => compare
      (((blocks tuple).getD (row / offsets.blockSize) []).toArray.getD i 0)
      (row % offsets.blockSize % UInt16.size))
      ((blocks tuple).getD (row / offsets.blockSize) []).length).isSome, ?_⟩
    rw [OffsetStreams.tupleOf, if_neg divides]
    apply OffsetStreams.findTuple_eq
    intro tuple named
    exact ⟨_, (cuts tuple named).stream, OffsetStreams.holds_blockStream _ _ _⟩
  choose holds? looked using search
  refine ⟨_, looked, rfl, ?_, ?_, _, (placements_ole wide offsets).trans (tupleRows_eq
    fun tuple named => OffsetStreams.rowsOf_eq (cuts tuple named).stream),
    placements_listed fun tuple named => (cuts tuple named).inside,
    fun row _ => last_tupleRows _ _ row⟩
  · intro row place _
    simp only [cellAt_ole wide, looked, bind, Except.bind]
    cases (List.range' 0 dictionary.tuples).find? (holds? row) <;> rfl
  · intro row tuple _ found
    have member := List.mem_range'_1.mp (List.mem_of_find?_eq_some found)
    omega

/-- If all blocks are in order, a lookup finds the first tuple that lists the row. -/
theorem tupleOf_of_inOrder (positive : 0 < offsets.blockSize)
    (size : offsets.blockSize ≤ UInt16.size)
    (order : ∀ tuple, tuple < dictionary.tuples →
      OffsetStreams.InOrder offsets.blockSize (blocks tuple)) (row : Nat) :
    offsets.tupleOf dictionary.tuples row =
      .ok (listing (fun tuple => OffsetStreams.rowsFrom offsets.blockSize 0 (blocks tuple))
        dictionary.tuples row).head? := by
  have place : row % offsets.blockSize % UInt16.size = row % offsets.blockSize :=
    Nat.mod_eq_of_lt (Nat.lt_of_lt_of_le (Nat.mod_lt row positive) size)
  rw [OffsetStreams.tupleOf, if_neg (by omega), place, head?_listing]
  apply OffsetStreams.findTuple_eq
  intro tuple named
  have cut := cuts tuple named
  have inOrder := order tuple named
  have count := OffsetStreams.length_le_blockStream (blocks tuple)
  have few := cut.few
  have short : (blocks tuple).length * offsets.blockSize < UInt64.size := by
    have product := Nat.mul_le_mul (show (blocks tuple).length ≤ maxIndex by omega) size
    rw [maxIndex, UInt16.size] at product
    rw [UInt64.size]
    omega
  refine ⟨_, cut.stream, ?_⟩
  rw [OffsetStreams.holds_of_inOrder inOrder]
  congr 1
  rw [Bool.eq_iff_iff, List.contains_iff_mem,
    OffsetStreams.mem_rowsFrom_iff inOrder positive short]

end Offsets

end Group

end PackedMatrix
