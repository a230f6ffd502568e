import PackedMatrix.Proofs.RowIndexChecks
import PackedMatrix.Proofs.Steps

namespace PackedMatrix

namespace GapStream

theorem word?_eq (gaps : GapStream) (i : Nat) : gaps.word? i = gaps.toList[i]? := by
  cases gaps <;> simp [word?, toList]

theorem length_toList (gaps : GapStream) : gaps.toList.length = gaps.length := by
  cases gaps <;> simp [toList, length]

theorem maxGap_pos (gaps : GapStream) : 0 < gaps.maxGap := by
  cases gaps <;> simp [maxGap]

theorem le_maxGap_of_word? {gaps : GapStream} {position word : Nat}
    (h : gaps.word? position = some word) : word ≤ gaps.maxGap := by
  cases gaps with
  | byte words =>
    obtain ⟨value, _, rfl⟩ := Option.map_eq_some_iff.mp h
    exact Nat.le_of_lt_succ value.toNat_lt
  | half words =>
    obtain ⟨value, _, rfl⟩ := Option.map_eq_some_iff.mp h
    exact Nat.le_of_lt_succ value.toNat_lt

theorem drop_of_word? {gaps : GapStream} {position word : Nat}
    (h : gaps.word? position = some word) :
    gaps.toList.drop position = word :: gaps.toList.drop (position + 1) := by
  rw [word?_eq] at h
  obtain ⟨inside, value⟩ := List.getElem?_eq_some_iff.mp h
  rw [List.drop_eq_getElem_cons inside, value]

end GapStream

namespace RowIndex

/-- The index is the encoding, in words of its width, of an increasing list of stored rows. -/
structure Encodes (index : RowIndex) (rows : List Nat) : Prop where
  increasing : rows.Pairwise (· < ·)
  stored : ∀ row ∈ rows, row ≤ maxIndex
  length : index.length = rows.length
  words : index.gaps.toList = (gapLists index.gaps.maxGap rows).flatten
  anchors : index.anchors.toList.map (fun anchor => (anchor.row.toNat, anchor.position.toNat)) =
    (List.range (anchorsFor rows.length)).map fun i =>
      (rows.getD (i * anchorInterval) 0, place index.gaps.maxGap rows (i * anchorInterval))

/-- A step reads the words of the gap that it adds, and only those. -/
theorem words_of_step {gaps : GapStream} {cursor next : GapCursor}
    (h : gaps.step cursor = .ok next) :
    cursor.row < next.row ∧ next.row ≤ maxIndex ∧
      next.position = cursor.position +
        (gapWords gaps.maxGap (next.row - cursor.row)).length ∧
      gaps.toList.drop cursor.position =
        gapWords gaps.maxGap (next.row - cursor.row) ++ gaps.toList.drop next.position := by
  have some_ := gaps.maxGap_pos
  fun_induction GapStream.step gaps cursor with
  | case1 cursor absent => cases h
  | case2 cursor word found row outside => cases h
  | case3 cursor found row inside ih =>
    have reached : row = cursor.row + gaps.maxGap := rfl
    clear_value row
    obtain ⟨before, small, position, words⟩ := ih h
    simp only at before position words
    have rest : next.row - cursor.row - gaps.maxGap = next.row - row := by omega
    have split := gapWords_large some_ (show gaps.maxGap < next.row - cursor.row by omega)
    rw [rest] at split
    refine ⟨by omega, small, ?_, ?_⟩
    · rw [split, List.length_cons]
      omega
    · rw [GapStream.drop_of_word? found, split, words, List.cons_append]
  | case4 cursor word found row inside last =>
    cases h
    have reached : row = cursor.row + word := by simp [row, last]
    clear_value row
    have gap : row - cursor.row = word := by omega
    have split := gapWords_small (GapStream.le_maxGap_of_word? found)
    refine ⟨?_, ?_, ?_, ?_⟩
    · show cursor.row < row
      omega
    · show row ≤ maxIndex
      omega
    · rw [gap, split, List.length_singleton]
    · rw [gap, split, GapStream.drop_of_word? found, List.singleton_append]

namespace Lists

variable {index : RowIndex} {rows : List Nat} {place : Nat → Nat}

theorem increasing (lists : index.Lists rows place) : rows.Pairwise (· < ·) := by
  apply List.isChain_iff_pairwise.mp
  apply List.isChain_iff_getElem.mpr
  intro i inside
  exact (words_of_step (lists.step i inside)).1

theorem stored (lists : index.Lists rows place) : ∀ row ∈ rows, row ≤ maxIndex := by
  intro row member
  obtain ⟨i, inside, rfl⟩ := List.mem_iff_getElem.mp member
  cases i with
  | zero =>
    have anchored := (lists.anchor 0 (by simpa using inside)).1
    simp only [Nat.zero_mul] at anchored
    rw [← anchored, maxIndex]
    exact Nat.le_of_lt_succ (UInt32.toNat_lt _)
  | succ i => exact (words_of_step (lists.step i inside)).2.1

/-- In front of an entry stand the words of the gaps before it. -/
theorem words_upTo (lists : index.Lists rows place) {i : Nat} (inside : i < rows.length) :
    place i = RowIndex.place index.gaps.maxGap rows i ∧
      index.gaps.toList = ((gapLists index.gaps.maxGap rows).take i).flatten ++
        index.gaps.toList.drop (place i) := by
  induction i with
  | zero => simp [lists.start, RowIndex.place]
  | succ i ih =>
    obtain ⟨here, before⟩ := ih (by omega)
    obtain ⟨_, _, position, words⟩ := words_of_step (lists.step i inside)
    simp only at position words
    have listed : i < (gapLists index.gaps.maxGap rows).length := by
      rw [length_gapLists]
      omega
    constructor
    · rw [position, here, place_succ _ inside]
    · rw [List.take_add_one, List.getElem?_eq_getElem listed, getElem_gapLists inside,
        Option.toList_some, List.flatten_append, List.flatten_singleton, List.append_assoc, ← words]
      exact before

/-- An index that lists rows, and has no word behind the last one, is their encoding. -/
theorem encodes (lists : index.Lists rows place)
    (ends : place (rows.length - 1) = index.gaps.length) : index.Encodes rows := by
  refine ⟨lists.increasing, lists.stored, lists.length, ?_, ?_⟩
  · cases rows with
    | nil =>
      have empty : index.gaps.length = 0 := ends.symm.trans lists.start
      rw [← GapStream.length_toList] at empty
      exact List.eq_nil_of_length_eq_zero empty
    | cons first rest =>
      have last := (lists.words_upTo (Nat.lt_succ_self rest.length)).2
      have whole : (gapLists index.gaps.maxGap (first :: rest)).length ≤ rest.length := by
        rw [length_gapLists]
        exact Nat.le_refl _
      have none : index.gaps.toList.drop (place rest.length) = [] := by
        apply List.drop_eq_nil_of_le
        rw [GapStream.length_toList]
        exact Nat.le_of_eq ends.symm
      rwa [none, List.append_nil, List.take_of_length_le whole] at last
  · apply List.ext_getElem
    · simp [lists.anchorCount]
    · intro i inside _
      have listed : i < index.anchors.size := by simpa using inside
      have within := lt_anchorsFor_iff.mp (lists.anchorCount ▸ listed)
      obtain ⟨row, position⟩ := lists.anchor i within
      rw [(lists.words_upTo within).1] at position
      rw [Array.getD_eq_getD_getElem?, Array.getElem?_eq_getElem listed, Option.getD_some]
        at row position
      simp [row, position, List.getD_eq_getElem?_getD, within]

end Lists

namespace Encodes

variable {index : RowIndex} {rows : List Nat}

/-- An encoding is determined by its words and the list. -/
theorem eq_made (encodes : index.Encodes rows) :
    index = ⟨index.gaps, anchorsOf index.gaps.maxGap rows, rows.length⟩ := by
  have anchors : index.anchors = anchorsOf index.gaps.maxGap rows := by
    have made := congrArg (List.map fun pair : Nat × Nat =>
      (⟨UInt32.ofNat pair.1, UInt32.ofNat pair.2⟩ : Anchor)) encodes.anchors
    have kept : (fun pair : Nat × Nat =>
        (⟨UInt32.ofNat pair.1, UInt32.ofNat pair.2⟩ : Anchor)) ∘
          (fun anchor : Anchor => (anchor.row.toNat, anchor.position.toNat)) = id := by
      funext anchor
      simp
    rw [List.map_map, kept, List.map_id, List.map_map] at made
    exact congrArg List.toArray made
  rw [← anchors, ← encodes.length]

theorem reads (encodes : index.Encodes rows) (i : Nat) :
    index.gaps.word? i = (gapLists index.gaps.maxGap rows).flatten[i]? := by
  rw [GapStream.word?_eq, encodes.words]

theorem lists (encodes : index.Encodes rows) :
    index.Lists rows (RowIndex.place index.gaps.maxGap rows) := by
  have made := lists_of_words encodes.reads index.gaps.maxGap_pos encodes.increasing encodes.stored
  rwa [← encodes.eq_made] at made

theorem ends (encodes : index.Encodes rows) :
    RowIndex.place index.gaps.maxGap rows (rows.length - 1) = index.gaps.length := by
  rw [RowIndex.place, ← length_gapLists index.gaps.maxGap, Segments.offset_length, ← encodes.words,
    GapStream.length_toList]

/-- No position in the stream exceeds 32 bits. -/
theorem length_gaps_le (encodes : index.Encodes rows) : index.gaps.length ≤ maxIndex := by
  rw [← encodes.ends]
  rcases Nat.eq_zero_or_pos rows.length with empty | some_
  · rw [List.eq_nil_of_length_eq_zero empty]
    exact Nat.zero_le _
  · have inside : rows.length - 1 < rows.length := by omega
    exact Nat.le_trans (place_le_getElem _ encodes.increasing inside)
      (encodes.stored _ (List.getElem_mem inside))

theorem unique (encodes : index.Encodes rows) {other : List Nat} (second : index.Encodes other) :
    other = rows :=
  Except.ok.inj (second.lists.rows_eq.symm.trans encodes.lists.rows_eq)

theorem ordinal?_eq_some_iff (encodes : index.Encodes rows) {row i : Nat} :
    index.ordinal? row = .ok (some i) ↔ rows[i]? = some row := by
  rw [encodes.lists.ordinal?_eq encodes.increasing, List.getElem?_eq_some_iff]
  constructor
  · intro found
    split at found
    next member =>
      cases found
      exact ⟨List.idxOf_lt_length_iff.mpr member, List.getElem_idxOf _⟩
    next => cases found
  · rintro ⟨inside, rfl⟩
    rw [if_pos (List.getElem_mem inside), Increasing.idxOf_getElem encodes.increasing inside]

theorem ordinal?_eq_none_iff (encodes : index.Encodes rows) {row : Nat} :
    index.ordinal? row = .ok none ↔ row ∉ rows := by
  rw [encodes.lists.ordinal?_eq encodes.increasing]
  by_cases member : row ∈ rows <;> simp [member]

end Encodes

/-- The check accepts the encodings of increasing lists, and nothing else. -/
theorem check_eq_ok_iff {index : RowIndex} :
    index.check = .ok () ↔ ∃ rows, index.Encodes rows := by
  constructor
  · intro h
    obtain ⟨rows, place, lists, ends⟩ := exists_lists h
    exact ⟨rows, lists.encodes ends⟩
  · rintro ⟨rows, encodes⟩
    exact encodes.lists.check_eq encodes.ends

/-- Validation accepts an index exactly if it is the encoding of an increasing list. There is one
such list; the index decodes to it, and its lookups are those of the list, without a fault. -/
theorem validate_eq_ok_iff_encodes (index : RowIndex) :
    (index.validate = .ok () ↔ ∃ rows, index.Encodes rows) ∧
      ∀ rows, index.Encodes rows →
        (∀ other, index.Encodes other → other = rows) ∧ index.rows = .ok rows ∧
        (∀ row i, index.ordinal? row = .ok (some i) ↔ rows[i]? = some row) ∧
        ∀ row, index.ordinal? row = .ok none ↔ row ∉ rows := by
  constructor
  · rw [← check_eq_ok_iff]
    exact ⟨mapError_eq_ok, fun accepted => by rw [validate, accepted]; rfl⟩
  · intro rows encodes
    exact ⟨fun other second => encodes.unique second, encodes.lists.rows_eq,
      fun row i => encodes.ordinal?_eq_some_iff, fun row => encodes.ordinal?_eq_none_iff⟩

/-- A gap of 300 rows takes a zero and a second byte. -/
def longGap : RowIndex := ⟨.byte #[0, 45], #[⟨10, 0⟩], 2⟩

theorem validate_eq_ok_iff_encodes_longGap :
    longGap.validate = .ok () ∧ longGap.rows = .ok [10, 310] ∧
      longGap.ordinal? 310 = .ok (some 1) ∧ longGap.ordinal? 265 = .ok none := by
  have encodes : longGap.Encodes [10, 310] := by constructor <;> decide
  obtain ⟨accepts, reads⟩ := validate_eq_ok_iff_encodes longGap
  obtain ⟨_, rows, listed, others⟩ := reads _ encodes
  exact ⟨accepts.mpr ⟨_, encodes⟩, rows, (listed 310 1).mpr rfl, (others 265).mpr (by decide)⟩

section Made

variable {rows : List Nat} (increasing : rows.Pairwise (· < ·))
  (stored : ∀ row ∈ rows, row ≤ maxIndex)

include increasing stored

theorem encodes_of_words {gaps : GapStream}
    (reads : ∀ i, gaps.word? i = (gapLists gaps.maxGap rows).flatten[i]?) :
    (⟨gaps, anchorsOf gaps.maxGap rows, rows.length⟩ : RowIndex).Encodes rows := by
  have words : gaps.toList = (gapLists gaps.maxGap rows).flatten := by
    apply List.ext_getElem?
    intro i
    rw [← GapStream.word?_eq, reads]
  apply (lists_of_words reads gaps.maxGap_pos increasing stored).encodes
  rw [place, ← length_gapLists gaps.maxGap, Segments.offset_length, ← words,
    GapStream.length_toList]

theorem encodes_inBytes : (inBytes rows).Encodes rows :=
  encodes_of_words increasing stored
    (word?_byte fun _ member => le_of_mem_gapLists (Nat.zero_lt_succ 254) member)

theorem encodes_inHalves : (inHalves rows).Encodes rows :=
  encodes_of_words increasing stored
    (word?_half fun _ member => le_of_mem_gapLists (Nat.zero_lt_succ 65534) member)

theorem encodes_ofRows : (ofRows rows).Encodes rows := by
  rw [ofRows_eq_smaller]
  split
  · exact encodes_inBytes increasing stored
  · exact encodes_inHalves increasing stored

/-- The index that is made for an increasing list is valid, decodes to the list and looks up its
places, and no read of it overflows. It is an encoding of the list whose positions fit 32 bits, and
it takes as many bytes as predicted: those of the smaller of the two encodings. -/
theorem ofRows_roundTrip :
    (ofRows rows).validate = .ok () ∧ (ofRows rows).rows = .ok rows ∧
      (ofRows rows).length = rows.length ∧
      (∀ row i, (ofRows rows).ordinal? row = .ok (some i) ↔ rows[i]? = some row) ∧
      (∀ row, (ofRows rows).ordinal? row = .ok none ↔ row ∉ rows) ∧
      (ofRows rows).Encodes rows ∧ (ofRows rows).gaps.length ≤ maxIndex ∧
      (ofRows rows).size = sizeOfRows rows ∧
      (inBytes rows).Encodes rows ∧ (inHalves rows).Encodes rows ∧
      sizeOfRows rows = min (inBytes rows).size (inHalves rows).size := by
  have encodes := encodes_ofRows increasing stored
  have accepted : (ofRows rows).check = .ok () := check_eq_ok_iff.mpr ⟨rows, encodes⟩
  refine ⟨?_, encodes.lists.rows_eq, encodes.length, fun row i => encodes.ordinal?_eq_some_iff,
    fun row => encodes.ordinal?_eq_none_iff, encodes, encodes.length_gaps_le, size_ofRows rows,
    encodes_inBytes increasing stored, encodes_inHalves increasing stored,
    sizeOfRows_eq_min rows⟩
  rw [validate, accepted]
  rfl

end Made

/-- The largest gaps of one word of each width, one that is larger by one, and the last row. -/
def boundaryGaps : List Nat := [0, 255, 511, 66046, 4294967295]

theorem ofRows_roundTrip_boundaryGaps :
    (ofRows boundaryGaps).validate = .ok () ∧ (ofRows boundaryGaps).rows = .ok boundaryGaps ∧
      (ofRows boundaryGaps).ordinal? 4294967295 = .ok (some 4) ∧
      (ofRows boundaryGaps).ordinal? 510 = .ok none := by
  obtain ⟨accepted, rows, _, listed, others, _⟩ :=
    @ofRows_roundTrip boundaryGaps (by decide) (by decide)
  exact ⟨accepted, rows, (listed 4294967295 4).mpr rfl, (others 510).mpr (by decide)⟩

end RowIndex

end PackedMatrix
