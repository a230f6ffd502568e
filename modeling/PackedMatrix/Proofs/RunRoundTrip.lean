import PackedMatrix.Proofs.AcceptedBitmaps
import PackedMatrix.Proofs.BuiltStreams
import PackedMatrix.Proofs.EmittedPairs
import PackedMatrix.Proofs.GroupCodes

namespace PackedMatrix

theorem GapRun.flatMap_decode_ofRows {rows : List Nat} (sorted : rows.Pairwise (· < ·)) :
    (decode 0 (words (ofRows rows)) #[]).toList.flatMap Run.rows = rows := by
  rw [decode_words, List.nil_append, flatMap_runsFrom, rowsFrom_ofRows sorted]

/-- What a bitmap says of a row at a place of its tuples: the cell of the tuple whose list has the
row, and zero if no list has it. -/
structure Bitmap.HasCell (bitmap : Bitmap) (row place : Nat) (cell : Cell) : Prop where
  listed : ∀ i, row ∈ bitmap.list i → (bitmap.tuple i)[place]? = some cell
  zero : (∀ i, row ∉ bitmap.list i) → cell = Cell.zero

namespace RunStreams

variable {bitmap : Bitmap} {columns : List Nat} {rows : Nat} {runs : RunStreams}
  (accepted : bitmap.validate columns rows = .ok ()) (made : ofBitmap bitmap = .ok runs)

include accepted made

theorem tupleOf_of_validate (row : Nat) :
    RunStreams.tupleOf runs bitmap.tuples row = .ok (bitmap.listOf? row) := by
  obtain ⟨other, valid, same⟩ := Bitmap.exists_wellFormed accepted
  have streams : ofBitmap other = .ok runs := by rwa [ofBitmap, same]
  have found := tupleOf_ofBitmap valid streams row
  rwa [Bitmap.tuples, Bitmap.listOf?, same] at found

/-- A group of these runs reads what the bitmap says, unless there is a tuple but no list. -/
theorem exists_cellAt (whole : bitmap.lists = [] → bitmap.values.size < columns.length)
    (row : Nat) {place : Nat} (inside : place < columns.length) :
    ∃ cell, (⟨columns, rows, .rle (.ofBitmap bitmap) runs⟩ : Group).cellAt row place = .ok cell ∧
      bitmap.HasCell row place cell := by
  have nonempty : columns ≠ [] := List.length_pos_iff.mp (Nat.zero_lt_of_lt inside)
  have count := (Bitmap.tuples_ofBitmap_iff accepted nonempty).mpr whole
  have wide := Bitmap.width_ne_zero_of_validate accepted nonempty
  rw [Group.cellAt_rle wide, count, tupleOf_of_validate accepted made row]
  simp only [bind, Except.bind]
  cases found : bitmap.listOf? row with
  | none =>
    have absent : ∀ i, row ∉ bitmap.list i := fun i member =>
      Bitmap.listOf?_eq_none.mp found (Bitmap.mem_flatten_iff.mpr ⟨i, member⟩)
    exact ⟨Cell.zero, rfl, fun i member => absurd member (absent i), fun _ => rfl⟩
  | some tuple =>
    have member := (Bitmap.listOf?_eq_some_of_validate accepted).mp found
    have named := Bitmap.lt_tuples_of_mem_list member
    have valid := (Bitmap.validate_eq_ok_iff.mp accepted).2 fun none_ => by
      simp [Bitmap.tuples, none_] at named
    have within : place < (bitmap.tuple tuple).length := by rwa [valid.length_tuple named]
    have stored : tuple < (Dictionary.tuplesOf bitmap).length := by
      rwa [Dictionary.length_tuplesOf]
    have value := (Dictionary.holds_ofBitmap valid).value?_getElem stored
      (by rwa [Dictionary.getElem_tuplesOf])
    simp only [Dictionary.getElem_tuplesOf] at value
    refine ⟨(bitmap.tuple tuple)[place], ?_, ?_, fun absent => absurd member (absent tuple)⟩
    · simp only [Group.tupleCell, value, Fault.found]
    · intro i other
      rw [valid.list_unique other member, List.getElem?_eq_getElem within]

omit accepted made

/-- Emitting the pairs of an increasing list loses nothing, their runs have its rows in order, and
their number is what its maximal runs take. A group of runs that is made from an accepted bitmap
reads what the bitmap says, unless that has a tuple but no list. -/
theorem pairs_roundTrip :
    (∀ list : List Nat, list.Pairwise (· < ·) → (∀ row ∈ list, row < maxIndex) →
      GapRun.emit 0 list #[] = .ok (GapRun.ofRows list).toArray ∧
      (∀ word ∈ GapRun.words (GapRun.ofRows list), word < UInt16.size) ∧
      (GapRun.decode 0 (GapRun.words (GapRun.ofRows list)) #[]).toList.flatMap Run.rows = list ∧
      ∃ runs, (∀ others, Run.Maximal others list ↔ others = runs) ∧
        pairCount list = GapRun.countFrom 0 runs) ∧
    ∀ (columns : List Nat) (rows : Nat) (bitmap : Bitmap) (runs : RunStreams),
      bitmap.validate columns rows = .ok () →
      (bitmap.lists = [] → bitmap.values.size < columns.length) → ofBitmap bitmap = .ok runs →
      ∀ row place, place < columns.length → ∃ cell,
        (⟨columns, rows, .rle (.ofBitmap bitmap) runs⟩ : Group).cellAt row place = .ok cell ∧
          bitmap.HasCell row place cell := by
  refine ⟨fun list sorted small => ?_, fun columns rows bitmap runs accepted whole made row place =>
    exists_cellAt accepted made whole row⟩
  refine ⟨GapRun.emit_ofRows sorted small, fun word member => ?_,
    GapRun.flatMap_decode_ofRows sorted, Run.ofRows list, fun _ => Run.maximal_iff sorted,
    pairCount_eq sorted⟩
  exact Nat.lt_succ_of_le (GapRun.le_of_mem_words member)

/-- A tuple in a run that takes two words, as the gap before it does, and in one more row. -/
def longRun : Bitmap := ⟨1, #[⟨7⟩], [List.range' 100000 70000 ++ [200000]]⟩

theorem wellFormed_longRun : longRun.WellFormed 1 200001 := by
  have sorted : (List.range' 100000 70000 ++ [200000]).Pairwise (· < ·) := by
    refine List.pairwise_append.mpr ⟨List.pairwise_lt_range', List.pairwise_singleton _ _, ?_⟩
    intro row early last late
    have := List.mem_range'_1.mp early
    rw [List.mem_singleton.mp late]
    omega
  have inside : ∀ row ∈ List.range' 100000 70000 ++ [200000], row < 200001 := by
    intro row member
    rcases List.mem_append.mp member with early | late
    · have := List.mem_range'_1.mp early
      omega
    · rw [List.mem_singleton.mp late]
      decide
  refine ⟨rfl, rfl, ?_, ?_, ?_, ?_⟩
  · simp [longRun]
  · simpa only [longRun, List.mem_singleton, forall_eq] using sorted
  · simpa only [longRun, List.mem_singleton, forall_eq] using inside
  · simpa only [longRun, List.flatten_singleton] using Increasing.nodup sorted

/-- The run and the gap before it take three pairs, and the last row takes one. -/
theorem pairs_roundTrip_longRun :
    (∃ pairs, GapRun.emit 0 (longRun.list 0) #[] = .ok pairs ∧ pairs.size = 4) ∧
      ∃ runs, ofBitmap longRun = .ok runs ∧
        (⟨[0], 200001, .rle (.ofBitmap longRun) runs⟩ : Group).cellAt 169999 0 = .ok ⟨7⟩ ∧
        (⟨[0], 200001, .rle (.ofBitmap longRun) runs⟩ : Group).cellAt 170000 0 = .ok Cell.zero := by
  have valid := wellFormed_longRun
  have single : longRun.lists = [longRun.list 0] := rfl
  have mem_iff : ∀ row, row ∈ longRun.list 0 ↔ 100000 ≤ row ∧ row < 170000 ∨ row = 200000 := by
    simp [longRun, Bitmap.list]
  obtain ⟨emitted, _, _, runs, maximal, count⟩ := pairs_roundTrip.1 (longRun.list 0)
    (valid.increasing_list 0) fun row member => Nat.lt_trans (valid.row_lt member) (by decide)
  have cut : Run.Maximal [⟨100000, 70000⟩, ⟨200000, 1⟩] (longRun.list 0) :=
    ⟨by simp [longRun, Bitmap.list, Run.rows], by simp, by simp [Run.stop]⟩
  have four : pairCount (longRun.list 0) = 4 := by
    rw [count, ← (maximal _).mp cut]
    decide
  have few : 2 * total (longRun.lists.map pairCount) ≤ maxIndex := by
    rw [single, List.map_singleton, four]
    decide
  obtain ⟨made, streams⟩ := exists_ofBitmap_iff.mpr few
  have reads := pairs_roundTrip.2 [0] 200001 longRun made valid.validate (by simp [longRun]) streams
  refine ⟨⟨_, emitted, ?_⟩, made, streams, ?_, ?_⟩
  · rw [List.size_toArray, ← pairCount, four]
  · obtain ⟨cell, read, shown⟩ := reads 169999 0 (by decide)
    have held : (longRun.tuple 0)[0]? = some ⟨7⟩ := rfl
    rw [shown.listed 0 ((mem_iff _).mpr (by omega))] at held
    rw [read, Option.some.inj held]
  · obtain ⟨cell, read, shown⟩ := reads 170000 0 (by decide)
    rw [read, shown.zero fun i member => ?_]
    have first : i = 0 := by simpa [single, Bitmap.tuples] using Bitmap.lt_tuples_of_mem_list member
    rw [first, mem_iff] at member
    omega

/-- A tuple without a list is accepted, but has no runs, so that a group of it cannot be read. -/
theorem cellAt_strayTuple : Bitmap.strayTuple.validate [0] 2 = .ok () ∧
    ofBitmap .strayTuple = .ok ⟨#[0], #[]⟩ ∧ (∀ i, 0 ∉ Bitmap.strayTuple.list i) ∧
      (⟨[0], 2, .rle (.ofBitmap .strayTuple) ⟨#[0], #[]⟩⟩ : Group).cellAt 0 0 =
        .error .outOfRange := by
  have few : ¬ 0 > maxIndex := by decide
  refine ⟨by decide, ?_, fun i => by simp [Bitmap.strayTuple, Bitmap.list], by decide⟩
  simp [ofBitmap, Bitmap.strayTuple, Streams.ofLists, few]

end RunStreams

end PackedMatrix
