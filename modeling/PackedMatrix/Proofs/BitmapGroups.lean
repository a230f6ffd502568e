import PackedMatrix.Proofs.BuiltGroups

namespace PackedMatrix

namespace Bitmap

/-- The tuple that a row holds: that of its list, or zeros if no list names the row. -/
def rowTuple (bitmap : Bitmap) (row : Nat) : List Cell :=
  (bitmap.listOf? row).elim (List.replicate bitmap.width Cell.zero) bitmap.tuple

/-- The cell that a row holds in a column. -/
def cellIn (bitmap : Bitmap) (columns : List Nat) (row col : Nat) : Cell :=
  (bitmap.rowTuple row).getD (columns.idxOf col) Cell.zero

variable {bitmap : Bitmap} {columns : List Nat} {rows : Nat}

theorem rowTuple_of_mem_list (valid : bitmap.WellFormed columns.length rows) {i row : Nat}
    (member : row ∈ bitmap.list i) : bitmap.rowTuple row = bitmap.tuple i := by
  rw [rowTuple, (listOf?_eq_some valid).mpr member, Option.elim_some]

theorem rowTuple_of_not_listed {row : Nat} (absent : row ∉ bitmap.lists.flatten) :
    bitmap.rowTuple row = List.replicate bitmap.width Cell.zero := by
  rw [rowTuple, listOf?_eq_none.mpr absent, Option.elim_none]

section Accepted

variable (accepted : bitmap.validate columns rows = .ok ())

include accepted

theorem wellFormed_of_mem_list {i row : Nat} (member : row ∈ bitmap.list i) :
    bitmap.WellFormed columns.length rows := by
  refine (validate_eq_ok_iff.mp accepted).2 ?_
  have bound := lt_tuples_of_mem_list member
  exact List.length_pos_iff.mp (Nat.zero_lt_of_lt bound)

theorem length_rowTuple (row : Nat) : (bitmap.rowTuple row).length = columns.length := by
  by_cases listed : row ∈ bitmap.lists.flatten
  · obtain ⟨i, member⟩ := mem_flatten_iff.mp listed
    have valid := wellFormed_of_mem_list accepted member
    rw [rowTuple_of_mem_list valid member, valid.length_tuple (lt_tuples_of_mem_list member)]
  · rw [rowTuple_of_not_listed listed, List.length_replicate, (validate_eq_ok_iff.mp accepted).1]

variable (sorted : columns.Pairwise (· < ·))

include sorted

theorem getElem?_rowTuple (row : Nat) {place : Nat} (inside : place < columns.length) :
    (bitmap.rowTuple row)[place]? = some (bitmap.cellIn columns row columns[place]) := by
  have within : place < (bitmap.rowTuple row).length := by rwa [length_rowTuple accepted]
  rw [cellIn, Increasing.idxOf_getElem sorted inside, List.getD_eq_getElem?_getD,
    List.getElem?_eq_getElem within, Option.getD_some]

theorem map_cellIn (row : Nat) : columns.map (bitmap.cellIn columns row) = bitmap.rowTuple row := by
  refine List.ext_getElem ?_ fun place first second => ?_
  · rw [List.length_map, length_rowTuple accepted]
  · have inside : place < columns.length := by simpa using first
    have here := getElem?_rowTuple accepted sorted row inside
    rw [List.getElem_map, (List.getElem?_eq_some_iff.mp here).2]

theorem shows_cellIn : bitmap.Shows rows fun row => columns.map (bitmap.cellIn columns row) where
  listed i row member := by
    rw [map_cellIn accepted sorted,
      rowTuple_of_mem_list (wellFormed_of_mem_list accepted member) member]
  zero row _ absent := by
    rw [map_cellIn accepted sorted, rowTuple_of_not_listed absent, isZeroTuple, List.all_replicate]
    simp [Cell.isZero_iff]

end Accepted

end Bitmap

/-- A sparse body has the encoding of sparse coding, whatever its shape. -/
theorem SparseShape.encoding_of_encode {bitmap : Bitmap} {columns rows : Nat}
    (valid : bitmap.WellFormed columns rows) {body : GroupBody}
    (h : encode bitmap rows = .ok body) : body.encoding = .sdc := by
  obtain ⟨frequent, largest, _, encoded⟩ := encode_eq_ok valid h
  generalize choose bitmap.tuples (bitmap.zeros rows) largest = shape at encoded
  cases encoded with
  | singleZeros => rfl
  | single moved moving => rfl
  | zeros codes length named => rfl
  | general moved codes moving length named => rfl

namespace Group

variable {columns : List Nat} {rows : Nat} {bitmap : Bitmap} {encoding : Encoding}
  {settings : Settings} {source : Source}

theorem encoding_encodeAs (valid : bitmap.WellFormed columns.length rows) {body : GroupBody}
    (h : encodeAs encoding columns rows bitmap settings source = .ok body) :
    body.encoding = encoding := by
  cases encodeAs_eq_ok h with
  | ddc => rfl
  | ole offsets made => rfl
  | rle runs made => rfl
  | sdc _ made => exact SparseShape.encoding_of_encode valid made
  | uncompressed block same made => rfl

/-- Empty and constant groups are built for the bitmaps that are so, and for no others. -/
theorem Built.encoding_spec (fit : bitmap.lists ≠ [] → bitmap.WellFormed columns.length rows)
    (requested : encoding.isRequestable = true) {group : Group}
    (built : Built columns rows bitmap encoding settings source group) :
    (group.encoding = .empty ↔ bitmap.lists = []) ∧
      (group.encoding = .const ↔
        ∃ list, bitmap.lists = [list] ∧ ∀ row, row < rows → row ∈ list) ∧
      (group.encoding ≠ .empty → group.encoding ≠ .const → group.encoding = encoding) := by
  cases built with
  | empty none => simp [Group.encoding, GroupBody.encoding, none]
  | const filled single full =>
    have all := (fit filled).single_full_iff.mp ⟨single, full⟩
    simp [Group.encoding, GroupBody.encoding, filled, all]
  | coded filled mixed body made =>
    have same : (⟨columns, rows, body⟩ : Group).encoding = encoding :=
      encoding_encodeAs ((fit filled).ordered settings) made
    have chosen : encoding ≠ .empty ∧ encoding ≠ .const := by
      constructor
      · rintro rfl
        cases requested
      · rintro rfl
        cases requested
    rw [(fit filled).single_full_iff] at mixed
    rw [same]
    exact ⟨iff_of_false chosen.1 filled, iff_of_false chosen.2 mixed, fun _ _ => rfl⟩

/-- Whatever bitmap is accepted, the group that is built for it without a copy of the columns is
valid, is empty or constant if the bitmap is and else has the encoding that was asked for, and both
ways of reading it give the cells of the tuple that each row holds. -/
theorem ofBitmap_reads_rowTuple (nonempty : columns ≠ []) (sorted : columns.Pairwise (· < ·))
    (short : rows ≤ maxIndex) (requested : encoding ∈ [Encoding.ddc, .ole, .rle, .sdc])
    {group : Group} (h : ofBitmap columns rows bitmap encoding settings source = .ok group) :
    group.validate = .ok () ∧
      ((group.encoding = .empty ↔ bitmap.lists = []) ∧
        (group.encoding = .const ↔
          ∃ list, bitmap.lists = [list] ∧ ∀ row, row < rows → row ∈ list) ∧
        (group.encoding ≠ .empty → group.encoding ≠ .const → group.encoding = encoding)) ∧
      (∀ row place (inside : place < columns.length), row < rows →
        ∃ cell, (bitmap.rowTuple row)[place]? = some cell ∧
          group.get? row columns[place] = .ok (some cell)) ∧
      ∀ (width : Nat) (buffer : Array Cell), (∀ col ∈ columns, col < width) →
        buffer.size = rows * width →
        (∀ row col, row < rows → col ∈ columns →
          buffer[row * width + col]? = some Cell.zero) →
        ∃ after, group.decompressInto width buffer = .ok after ∧ after.size = buffer.size ∧
          ∀ row, row < rows →
            (∀ place (inside : place < columns.length),
              after[row * width + columns[place]]? = (bitmap.rowTuple row)[place]?) ∧
            ∀ col, col < width → col ∉ columns →
              after[row * width + col]? = buffer[row * width + col]? := by
  have plain : ∀ other ∈ [Encoding.ddc, .ole, .rle, .sdc],
      other.isRequestable = true ∧ other ≠ .uncompressed := by decide
  obtain ⟨requestable, coded⟩ := plain encoding requested
  obtain ⟨accepted, built⟩ := ofBitmap_eq_ok h
  have fit := (Bitmap.validate_eq_ok_iff.mp accepted).2
  have valid := built.accepted nonempty sorted short (fun copy => absurd copy coded) fit
  have shown := built.shows nonempty sorted short (Bitmap.shows_cellIn accepted sorted)
    (fun copy => absurd copy coded) fit
  have kind := built.encoding_spec fit requestable
  have held := @Bitmap.getElem?_rowTuple bitmap columns rows accepted sorted
  obtain ⟨found, height, body⟩ := group
  obtain ⟨rfl, rfl⟩ : found = columns ∧ height = rows := built.fields
  refine ⟨validate_eq_ok_iff.mpr valid, kind, ?_, ?_⟩
  · intro row place inside inRow
    refine ⟨_, held row inside, ?_⟩
    rw [shown.get?_eq, if_pos ⟨inRow, List.getElem_mem inside⟩]
  · intro width buffer within size blank
    obtain ⟨after, written, kept, cells⟩ := shown.decompressInto within size
    refine ⟨after, written, kept, fun row inRow => ⟨?_, ?_⟩⟩
    · intro place inside
      have member := List.getElem_mem inside
      rw [held row inside]
      exact (cells row _ inRow (within _ member)).2 member (blank row _ inRow member)
    · exact fun col inCol absent => (cells row col inRow inCol).1 absent

/-- Two equal tuples with a negative zero, and a tuple of zeros that is listed all the same. -/
def repeatedTuples : Bitmap where
  width := 2
  values := #[⟨0⟩, ⟨0⟩, ⟨0x3ff0000000000000⟩, ⟨0x8000000000000000⟩, ⟨0x3ff0000000000000⟩,
    ⟨0x8000000000000000⟩]
  lists := [[1], [0, 2, 5], [3]]

/-- Rows of the most frequent tuple are not listed, and row 4 has a tuple of zeros of its own. -/
def repeatedTuplesGroup : Group where
  columns := [1, 3]
  rows := 6
  body := .sdc
    ⟨#[⟨0⟩, ⟨0⟩, ⟨0x3ff0000000000000⟩, ⟨0x8000000000000000⟩, ⟨0⟩, ⟨0⟩, ⟨0x3ff0000000000000⟩,
      ⟨0x8000000000000000⟩], 2⟩
    ⟨.byte #[2, 1], #[⟨1, 0⟩], 3⟩ (.byte #[0, 1, 2])

theorem ofBitmap_reads_rowTuple_repeatedTuples :
    ofBitmap [1, 3] 6 repeatedTuples .sdc {} ⟨⟨0, 0, .dense #[]⟩, false⟩ =
        .ok repeatedTuplesGroup ∧
      repeatedTuplesGroup.validate = .ok () ∧
      repeatedTuplesGroup.get? 5 3 = .ok (some ⟨0x8000000000000000⟩) ∧
      ∃ after, repeatedTuplesGroup.decompressInto 4 (Array.replicate 24 Cell.zero) = .ok after ∧
        after[23]? = some ⟨0x8000000000000000⟩ ∧ after[22]? = some Cell.zero := by
  have fit : repeatedTuples.WellFormed 2 6 := by
    refine ⟨rfl, rfl, ?_, ?_, ?_, ?_⟩ <;> simp [repeatedTuples]
  have checked : repeatedTuples.validate [1, 3] 6 = .ok () := Bitmap.WellFormed.validate fit
  have order : repeatedTuples.lists.zipIdx.mergeSort
      (fun a b => decide (b.1.length ≤ a.1.length)) = [([0, 2, 5], 1), ([1], 0), ([3], 2)] := by
    simp [repeatedTuples, List.mergeSort, List.MergeSort.Internal.splitInTwo]
  have made : ofBitmap [1, 3] 6 repeatedTuples .sdc {} ⟨⟨0, 0, .dense #[]⟩, false⟩ =
      .ok repeatedTuplesGroup := by
    rw [ofBitmap, checked]
    simp only [bind, Except.bind, encode, Bitmap.sortByFrequency, order]
    decide +kernel
  have row : repeatedTuples.rowTuple 5 = [⟨0x3ff0000000000000⟩, ⟨0x8000000000000000⟩] := by
    decide +kernel
  obtain ⟨valid, _, reads, writes⟩ :=
    ofBitmap_reads_rowTuple (by decide) (by decide) (by decide) (by decide) made
  obtain ⟨cell, held, read⟩ := reads 5 1 (by decide) (by decide)
  have blank : ∀ row col, row < 6 → col ∈ [1, 3] →
      (Array.replicate 24 Cell.zero)[row * 4 + col]? = some Cell.zero := by
    intro row col inRow inCol
    have inside : col < 4 := by
      simp only [List.mem_cons, List.not_mem_nil, or_false] at inCol
      omega
    rw [Array.getElem?_replicate, if_pos (by omega)]
  obtain ⟨after, written, _, cells⟩ := writes 4 (Array.replicate 24 Cell.zero) (by decide) (by simp)
    blank
  obtain ⟨own, other⟩ := cells 5 (by decide)
  rw [row] at held
  have value := own 1 (by decide)
  rw [row] at value
  cases held
  exact ⟨made, valid, read, after, written, value, other 2 (by decide) (by decide)⟩

end Group

end PackedMatrix
