import PackedMatrix.Proofs.AcceptedBitmaps
import PackedMatrix.Proofs.BuiltStreams

namespace PackedMatrix

/-- The streams are these lists: a pointer to each of them and one behind the last, and their words
one list behind the other. -/
structure Streams.Tile (streams : Streams) (lists : List (List Nat)) : Prop where
  pointers : streams.ptr.toList.map UInt32.toNat =
    (List.range (lists.length + 1)).map (Segments.offset lists)
  words : streams.data.toList.map UInt16.toNat = lists.flatten

theorem Streams.tile_ofLists {lists : List (List Nat)}
    (words : ∀ list ∈ lists, ∀ word ∈ list, word ≤ 65535)
    (few : lists.flatten.length ≤ maxIndex) : (ofLists lists).Tile lists :=
  ⟨pointers_ofLists few, words_ofLists words⟩

namespace OffsetStreams

section Made

variable {bitmap : Bitmap} {columns : List Nat} {rows blockSize : Nat} {offsets : OffsetStreams}
  (accepted : bitmap.validate columns rows = .ok ())
  (made : ofBitmap bitmap blockSize = .ok offsets)

include accepted made

/-- The streams depend on the lists only, so that they are those of a well-formed bitmap. -/
theorem exists_made : ∃ other : Bitmap, other.WellFormed columns.length rows ∧
    other.lists = bitmap.lists ∧ ofBitmap other blockSize = .ok offsets := by
  obtain ⟨other, valid, same⟩ := Bitmap.exists_wellFormed accepted
  exact ⟨other, valid, same, by rwa [ofBitmap, same]⟩

theorem tupleOf_of_validate (row : Nat) :
    offsets.tupleOf bitmap.tuples row = .ok (bitmap.listOf? row) := by
  obtain ⟨other, valid, same, streams⟩ := exists_made accepted made
  have found := tupleOf_ofBitmap valid streams row
  rwa [Bitmap.tuples, Bitmap.listOf?, same] at found

theorem rowsOf_of_validate {i : Nat} (inside : i < bitmap.tuples) :
    offsets.rowsOf i = .ok (bitmap.list i) := by
  obtain ⟨other, valid, same, streams⟩ := exists_made accepted made
  rw [Bitmap.tuples, ← same] at inside
  rw [rowsOf_ofBitmap valid streams inside, Bitmap.list, same, Bitmap.list]

theorem encode_of_validate {list : List Nat} (member : list ∈ bitmap.lists) :
    (encode blockSize list).length = streamLength blockSize list ∧
      ∀ word ∈ encode blockSize list, word < UInt16.size := by
  obtain ⟨other, valid, same, streams⟩ := exists_made accepted made
  obtain ⟨positive, most, _⟩ := ofBitmap_eq_ok valid streams
  have sorted := valid.increasing list (same ▸ member)
  refine ⟨length_encode sorted positive, fun word listed => ?_⟩
  exact Nat.lt_succ_of_le (Nat.le_trans (le_of_mem_encode sorted positive listed) most)

theorem tile_of_validate : offsets.streams.Tile (bitmap.lists.map (encode blockSize)) := by
  obtain ⟨other, valid, same, streams⟩ := exists_made accepted made
  obtain ⟨_, _, _, laid, few⟩ := ofBitmap_eq_ok valid streams
  rw [same] at laid few
  rw [laid]
  refine Streams.tile_ofLists (fun stream member => ?_) few
  obtain ⟨list, listed, rfl⟩ := List.mem_map.mp member
  intro word here
  exact Nat.le_of_lt_succ ((encode_of_validate accepted made listed).2 word here)

theorem stream_of_validate {i : Nat} (inside : i < bitmap.tuples) :
    offsets.streams.stream i = .ok (encode blockSize (bitmap.list i)) := by
  obtain ⟨other, valid, same, streams⟩ := exists_made accepted made
  rw [Bitmap.tuples, ← same] at inside
  rw [stream_ofBitmap valid streams inside, ← Bitmap.list_eq_getElem inside, Bitmap.list, same,
    Bitmap.list]

/-- The stream of each tuple of an accepted bitmap has as many words as were counted, all of 16
bits, and gives the tuple's rows back in order; the streams lie one behind the other. Over columns,
and unless there is a tuple but no list, a row is looked up as the tuple whose list has it. -/
theorem ofBitmap_roundTrip :
    (∀ i, i < bitmap.tuples →
      offsets.streams.stream i = .ok (encode blockSize (bitmap.list i)) ∧
      (encode blockSize (bitmap.list i)).length = streamLength blockSize (bitmap.list i) ∧
      (∀ word ∈ encode blockSize (bitmap.list i), word < UInt16.size) ∧
      offsets.rowsOf i = .ok (bitmap.list i)) ∧
    offsets.streams.Tile (bitmap.lists.map (encode blockSize)) ∧
    (columns ≠ [] → (bitmap.lists = [] → bitmap.values.size < columns.length) → ∀ row, ∃ found,
      offsets.tupleIn (.ofBitmap bitmap) row = .ok found ∧
      (∀ i, found = some i ↔ row ∈ bitmap.list i) ∧
      (found = none ↔ ∀ i, row ∉ bitmap.list i)) := by
  refine ⟨fun i inside => ?_, tile_of_validate accepted made, fun nonempty whole row => ?_⟩
  · obtain ⟨length, words⟩ := encode_of_validate accepted made (DisjointLists.getD_mem inside)
    exact ⟨stream_of_validate accepted made inside, length, words,
      rowsOf_of_validate accepted made inside⟩
  · have count := (Bitmap.tuples_ofBitmap_iff accepted nonempty).mpr whole
    have wide := Bitmap.width_ne_zero_of_validate accepted nonempty
    refine ⟨bitmap.listOf? row, ?_, fun i => Bitmap.listOf?_eq_some_of_validate accepted, ?_⟩
    · rw [tupleIn_eq wide, count, tupleOf_of_validate accepted made]
    · rw [Bitmap.listOf?_eq_none, Bitmap.mem_flatten_iff, not_exists]

end Made

/-- A tuple with an empty block, and one whose last row ends a block. -/
def skippedBlock : Bitmap := ⟨1, #[⟨7⟩, ⟨9⟩], [[1, 2, 300], [127, 128, 255]]⟩

/-- Rows are found at the ends of a block, but not in an empty block, nor behind the last one. -/
theorem ofBitmap_roundTrip_skippedBlock : ∃ offsets, ofBitmap skippedBlock 128 = .ok offsets ∧
    offsets.streams.stream 0 = .ok [2, 1, 2, 0, 1, 44] ∧
      offsets.rowsOf 1 = .ok [127, 128, 255] ∧
      offsets.tupleIn (.ofBitmap skippedBlock) 255 = .ok (some 1) ∧
      offsets.tupleIn (.ofBitmap skippedBlock) 129 = .ok none ∧
      offsets.tupleIn (.ofBitmap skippedBlock) 399 = .ok none := by
  have valid : skippedBlock.WellFormed 1 400 :=
    ⟨rfl, rfl, by decide, by decide, by decide, by decide⟩
  have accepted : skippedBlock.validate [4] 400 = .ok () := valid.validate
  have few : total (skippedBlock.lists.map (streamLength 128)) ≤ maxIndex := by decide
  obtain ⟨offsets, made⟩ := (exists_ofBitmap_iff (by decide) (by decide)).mpr few
  obtain ⟨streams, _, finds⟩ := ofBitmap_roundTrip accepted made
  have outside : ∀ row, row ∉ skippedBlock.lists.flatten →
      offsets.tupleIn (.ofBitmap skippedBlock) row = .ok none := by
    intro row absent
    obtain ⟨found, read, _, unlisted⟩ := finds (by decide) (by decide) row
    rw [read, unlisted.mpr fun i member => absent (Bitmap.mem_flatten_iff.mpr ⟨i, member⟩)]
  obtain ⟨found, read, listed, _⟩ := finds (by decide) (by decide) 255
  refine ⟨offsets, made, (streams 0 (by decide)).1, (streams 1 (by decide)).2.2.2, ?_, ?_, ?_⟩
  · rw [read, (listed 1).mpr (by decide)]
  · exact outside 129 (by decide)
  · exact outside 399 (by decide)

/-- Rows of a tuple over no columns. -/
def columnless : Bitmap := ⟨0, #[], [[0, 1]]⟩

/-- A tuple without a list is accepted, but has no stream that a row could be looked up in; and over
no columns no row is looked up, as counting the tuples of the dictionary divides by zero. -/
theorem tupleOf_ne_of_accepted :
    (Bitmap.strayTuple.validate [0] 2 = .ok () ∧ (∀ i, 0 ∉ Bitmap.strayTuple.list i) ∧
      ∃ offsets, ofBitmap .strayTuple 1 = .ok offsets ∧
        offsets.tupleIn (.ofBitmap .strayTuple) 0 = .error .outOfRange) ∧
    columnless.validate [] 2 = .ok () ∧ 0 ∈ columnless.list 0 ∧
      ∃ offsets, ofBitmap columnless 1 = .ok offsets ∧
        offsets.tupleIn (.ofBitmap columnless) 0 = .error .zeroDivisor := by
  have valid : columnless.WellFormed 0 2 :=
    ⟨rfl, rfl, by decide, by decide, by decide, by decide⟩
  refine ⟨⟨by decide, by simp [Bitmap.strayTuple, Bitmap.list], _, rfl, ?_⟩, valid.validate,
    by decide, _, rfl, rfl⟩
  rw [tupleIn_eq (by decide)]
  simp [tupleOf, findTuple, Streams.stream, Streams.ofLists, Bitmap.strayTuple,
    Dictionary.ofBitmap, Dictionary.tuples]

end OffsetStreams

end PackedMatrix
