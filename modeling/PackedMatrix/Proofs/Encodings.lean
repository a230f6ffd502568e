import PackedMatrix.Group.Build
import PackedMatrix.Proofs.BlockCopies
import PackedMatrix.Proofs.CodeMapReads
import PackedMatrix.Proofs.GroupCodes
import PackedMatrix.Proofs.SparseShapes

namespace PackedMatrix

namespace Group

section Bitmap

variable {columns : List Nat} {rows : Nat} {bitmap : Bitmap} {cell : Nat → Nat → Cell}

theorem tuple_of_listed (shown : bitmap.Shows rows fun row => columns.map (cell row)) {i row : Nat}
    (member : row ∈ bitmap.list i) :
    (Dictionary.tuplesOf bitmap)[i]? = some (columns.map (cell row)) := by
  have bound := Bitmap.lt_tuples_of_mem_list member
  have inside : i < (Dictionary.tuplesOf bitmap).length := by
    rwa [Dictionary.length_tuplesOf]
  rw [List.getElem?_eq_getElem inside, Dictionary.getElem_tuplesOf inside,
    shown.listed i row member]

theorem zero_of_not_listed (shown : bitmap.Shows rows fun row => columns.map (cell row)) {row : Nat}
    (inRow : row < rows) (absent : row ∉ bitmap.lists.flatten) {col : Nat}
    (member : col ∈ columns) :
    cell row col = Cell.zero := by
  have all := shown.zero row inRow absent
  rw [isZeroTuple, List.all_eq_true] at all
  exact Cell.isZero_iff.mp (all _ (List.mem_map_of_mem member))

theorem zeroTuple_of_not_listed (shown : bitmap.Shows rows fun row => columns.map (cell row))
    {row : Nat} (inRow : row < rows) (absent : row ∉ bitmap.lists.flatten) :
    List.replicate columns.length Cell.zero = columns.map (cell row) := by
  symm
  rw [List.eq_replicate_iff]
  refine ⟨List.length_map _, ?_⟩
  intro value member
  obtain ⟨col, listed, rfl⟩ := List.mem_map.mp member
  exact zero_of_not_listed shown inRow absent listed

/-- A group that names the list of each row shows the cells of the bitmap. -/
theorem shows_of_listOf {body : GroupBody} {dictionary : Dictionary}
    {code? : Nat → Option Nat} (nonempty : columns ≠ []) (sorted : columns.Pairwise (· < ·))
    (valid : bitmap.WellFormed columns.length rows)
    (shown : bitmap.Shows rows fun row => columns.map (cell row))
    (holds : dictionary.Holds columns.length (Dictionary.tuplesOf bitmap))
    (codes : (⟨columns, rows, body⟩ : Group).Codes dictionary code?)
    (same : ∀ row, row < rows → code? row = bitmap.listOf? row) :
    (⟨columns, rows, body⟩ : Group).Shows cell := by
  refine codes.shows holds nonempty sorted ?_ ?_
  · intro row tuple inRow named
    rw [same row inRow] at named
    exact tuple_of_listed shown ((Bitmap.listOf?_eq_some valid).mp named)
  · intro row inRow none col member
    rw [same row inRow] at none
    exact zero_of_not_listed shown inRow (Bitmap.listOf?_eq_none.mp none) member

section Encodings

variable (nonempty : columns ≠ []) (sorted : columns.Pairwise (· < ·))
  (valid : bitmap.WellFormed columns.length rows)
  (shown : bitmap.Shows rows fun row => columns.map (cell row))

include nonempty sorted valid shown

theorem shows_const (single : bitmap.tuples = 1) (full : (bitmap.list 0).length = rows) :
    (⟨columns, rows, .const (.ofBitmap bitmap)⟩ : Group).Shows cell := by
  have holds := Dictionary.holds_ofBitmap valid
  have count := holds.tuples_eq (List.length_pos_iff.mpr nonempty)
  rw [Dictionary.length_tuplesOf, single] at count
  have every : ∀ row, row < rows → row ∈ bitmap.list 0 := by
    obtain ⟨list, only, all⟩ := valid.single_full_iff.mp ⟨single, full⟩
    rwa [Bitmap.list, only]
  refine shows_of_listOf nonempty sorted valid shown holds (codes_const (by omega)) ?_
  intro row inRow
  exact ((Bitmap.listOf?_eq_some valid).mpr (every row inRow)).symm

theorem shows_ole {blockSize : Nat} {offsets : OffsetStreams}
    (made : OffsetStreams.ofBitmap bitmap blockSize = .ok offsets) :
    (⟨columns, rows, .ole (.ofBitmap bitmap) offsets⟩ : Group).Shows cell := by
  have holds := Dictionary.holds_ofBitmap valid
  have count := holds.tuples_eq (List.length_pos_iff.mpr nonempty)
  rw [Dictionary.length_tuplesOf] at count
  have wide : (Dictionary.ofBitmap bitmap).width ≠ 0 := valid.wide nonempty
  exact shows_of_listOf nonempty sorted valid shown holds (codes_ole wide valid count made)
    fun _ _ => rfl

theorem shows_rle {runs : RunStreams} (made : RunStreams.ofBitmap bitmap = .ok runs) :
    (⟨columns, rows, .rle (.ofBitmap bitmap) runs⟩ : Group).Shows cell := by
  have holds := Dictionary.holds_ofBitmap valid
  have count := holds.tuples_eq (List.length_pos_iff.mpr nonempty)
  rw [Dictionary.length_tuplesOf] at count
  have wide : (Dictionary.ofBitmap bitmap).width ≠ 0 := valid.wide nonempty
  exact shows_of_listOf nonempty sorted valid shown holds (codes_rle wide valid count made)
    fun _ _ => rfl

end Encodings

/-- The writes of dense coding: the number of each list into its rows. -/
def listWrites (bitmap : Bitmap) : List (Nat × Nat) :=
  bitmap.lists.zipIdx.flatMap fun entry => entry.1.map fun row => (row, entry.2)

theorem mem_listWrites {write : Nat × Nat} :
    write ∈ listWrites bitmap ↔ write.1 ∈ bitmap.list write.2 := by
  rw [listWrites, List.mem_flatMap]
  constructor
  · rintro ⟨⟨list, place⟩, listed, member⟩
    obtain ⟨row, inside, rfl⟩ := List.mem_map.mp member
    obtain ⟨bound, here⟩ := List.mem_zipIdx' listed
    simp only [here] at inside
    rwa [Bitmap.list_eq_getElem bound]
  · intro member
    have bound := Bitmap.lt_tuples_of_mem_list member
    refine ⟨(bitmap.list write.2, write.2), List.mem_zipIdx_iff_getElem?.mpr ?_,
      List.mem_map.mpr ⟨write.1, member, rfl⟩⟩
    rw [Bitmap.list_eq_getElem bound]
    exact List.getElem?_eq_getElem bound

theorem last_listWrites (valid : bitmap.WellFormed columns.length rows) (row : Nat) :
    Writes.last row (listWrites bitmap) = bitmap.listOf? row := by
  cases found : bitmap.listOf? row with
  | some i =>
    have member := (Bitmap.listOf?_eq_some valid).mp found
    refine Writes.last_eq_some _ ?_ ⟨(row, i), mem_listWrites.mpr member, rfl⟩
    rintro write listed rfl
    exact valid.list_unique (mem_listWrites.mp listed) member
  | none =>
    apply Writes.last_eq_none
    rintro write listed rfl
    exact Bitmap.listOf?_eq_none.mp found (Bitmap.mem_flatten_iff.mpr ⟨_, mem_listWrites.mp listed⟩)

theorem encodeDense_eq (bitmap : Bitmap) (rows : Nat) : encodeDense bitmap rows =
    if bitmap.zeros rows > 0 then
      .ddc (Dictionary.ofBitmap bitmap).withZeroTuple <|
        (listWrites bitmap).foldl (fun codes write => codes.set write.1 write.2)
          ((CodeMap.create rows (Dictionary.ofBitmap bitmap).withZeroTuple.tuples).fill
            bitmap.tuples)
    else
      .ddc (Dictionary.ofBitmap bitmap) <|
        (listWrites bitmap).foldl (fun codes write => codes.set write.1 write.2)
          (CodeMap.create rows (Dictionary.ofBitmap bitmap).tuples) := by
  have flat : ∀ start : CodeMap, bitmap.lists.zipIdx.foldl
      (fun codes entry => entry.1.foldl (fun codes row => codes.set row entry.2) codes) start =
        (listWrites bitmap).foldl (fun codes write => codes.set write.1 write.2) start := by
    intro start
    rw [listWrites, List.foldl_flatMap]
    simp only [List.foldl_map]
  unfold encodeDense
  by_cases zeros : bitmap.zeros rows > 0
  · simp only [zeros, ↓reduceIte, flat]
  · simp only [zeros, ↓reduceIte, flat]

/-- Codes that are written over a map in which every entry has the same code. -/
theorem get?_listWrites (valid : bitmap.WellFormed columns.length rows) {start : CodeMap}
    (sized : start.Sized) (length : start.length = rows)
    (fits : ∀ i, i < bitmap.tuples → i ≤ start.maxCode) {row old : Nat}
    (before : start.get? row = some old) :
    ((listWrites bitmap).foldl (fun codes write => codes.set write.1 write.2) start).get? row =
      some ((bitmap.listOf? row).getD old) := by
  rw [CodeMap.get?_foldl_set _ sized _ _ before, last_listWrites valid]
  · intro write member
    rw [length]
    exact valid.row_lt (mem_listWrites.mp member)
  · intro write member
    exact fits _ (Bitmap.lt_tuples_of_mem_list (mem_listWrites.mp member))

/-- The tuples of dense coding: those of the bitmap, and the zero tuple if some rows are zero. -/
def denseTuples (bitmap : Bitmap) (width rows : Nat) : List (List Cell) :=
  Dictionary.tuplesOf bitmap ++
    if bitmap.zeros rows > 0 then [List.replicate width Cell.zero] else []

/-- Codes that name the list of each row, and behind the lists the zero tuple. -/
structure DenseCodes (bitmap : Bitmap) (width rows : Nat) (dictionary : Dictionary)
    (codes : CodeMap) : Prop where
  holds : dictionary.Holds width (denseTuples bitmap width rows)
  sized : codes.Sized
  length : codes.length = rows
  read : ∀ row, row < rows → codes.get? row = some ((bitmap.listOf? row).getD bitmap.tuples)

section Dense

variable (nonempty : columns ≠ []) (sorted : columns.Pairwise (· < ·))
  (valid : bitmap.WellFormed columns.length rows) (short : rows ≤ maxIndex)
  (shown : bitmap.Shows rows fun row => columns.map (cell row))

include valid

/-- A row of a list has its number, and a row of no list that of the zero tuple. -/
theorem getElem?_denseTuples {row : Nat} (inRow : row < rows) :
    (denseTuples bitmap columns.length rows)[(bitmap.listOf? row).getD bitmap.tuples]? =
      some ((bitmap.listOf? row).elim (List.replicate columns.length Cell.zero) bitmap.tuple) := by
  cases found : bitmap.listOf? row with
  | some i =>
    have bound := Bitmap.lt_tuples_of_mem_list ((Bitmap.listOf?_eq_some valid).mp found)
    have inside : i < (Dictionary.tuplesOf bitmap).length := by rwa [Dictionary.length_tuplesOf]
    rw [Option.getD_some, Option.elim_some, denseTuples, List.getElem?_append_left inside,
      List.getElem?_eq_getElem inside, Dictionary.getElem_tuplesOf inside]
  | none =>
    have some_ : bitmap.zeros rows > 0 := by
      by_contra none_
      have full : bitmap.zeros rows = 0 := by omega
      exact Bitmap.listOf?_eq_none.mp found (valid.zeros_eq_zero_iff.mp full row inRow)
    rw [Option.getD_none, Option.elim_none, denseTuples, if_pos some_,
      ← Dictionary.length_tuplesOf, List.getElem?_concat_length]

include nonempty short

theorem exists_denseCodes (filled : bitmap.lists ≠ []) : ∃ dictionary codes,
    encodeDense bitmap rows = .ddc dictionary codes ∧
      DenseCodes bitmap columns.length rows dictionary codes := by
  have positive : 0 < columns.length := List.length_pos_iff.mpr nonempty
  have some_ : 0 < bitmap.tuples := List.length_pos_iff.mpr filled
  have few : bitmap.tuples < UInt32.size := valid.tuples_lt_size short
  have holds := Dictionary.holds_ofBitmap valid
  rw [encodeDense_eq]
  by_cases zeros : bitmap.zeros rows > 0
  · have larger := holds.withZeroTuple
    have count := larger.tuples_eq positive
    rw [List.length_append, Dictionary.length_tuplesOf, List.length_singleton] at count
    have sized := (CodeMap.sized_create rows (bitmap.tuples + 1)).fill bitmap.tuples
    have length : ((CodeMap.create rows (bitmap.tuples + 1)).fill bitmap.tuples).length = rows := by
      rw [(CodeMap.fill_eq _ _).1, CodeMap.length_create]
    rw [if_pos zeros, count]
    refine ⟨_, _, rfl, ?_, sized.foldl_set _, ?_, fun row inRow => ?_⟩
    · rwa [denseTuples, if_pos zeros]
    · rw [CodeMap.length_foldl_set, length]
    · refine get?_listWrites valid sized length (fun i bound => ?_)
        (CodeMap.get?_fill_create (by omega) few inRow)
      rw [(CodeMap.fill_eq _ _).2.2]
      exact CodeMap.le_maxCode_create (by omega) few
  · have full : bitmap.zeros rows = 0 := by omega
    have count := holds.tuples_eq positive
    rw [Dictionary.length_tuplesOf] at count
    have sized := CodeMap.sized_create rows bitmap.tuples
    rw [if_neg zeros, count]
    refine ⟨_, _, rfl, ?_, sized.foldl_set _, ?_, fun row inRow => ?_⟩
    · rwa [denseTuples, if_neg zeros, List.append_nil]
    · rw [CodeMap.length_foldl_set, CodeMap.length_create]
    · rw [get?_listWrites valid sized (CodeMap.length_create _ _)
        (fun i bound => CodeMap.le_maxCode_create bound (Nat.le_of_lt few))
        (CodeMap.get?_create _ inRow)]
      cases found : bitmap.listOf? row with
      | some i => rfl
      | none =>
        exact absurd (valid.zeros_eq_zero_iff.mp full row inRow) (Bitmap.listOf?_eq_none.mp found)

include sorted shown

/-- Dense codes name the list of each row, and the added zero tuple for rows of no list. -/
theorem shows_encodeDense (filled : bitmap.lists ≠ []) :
    (⟨columns, rows, encodeDense bitmap rows⟩ : Group).Shows cell := by
  obtain ⟨dictionary, codes, made, dense⟩ := exists_denseCodes nonempty valid short filled
  have count := dense.holds.tuples_eq (List.length_pos_iff.mpr nonempty)
  rw [made]
  refine (codes_ddc dense.length fun row inRow => ⟨_, dense.read row inRow, ?_⟩).shows dense.holds
    nonempty sorted ?_ ?_
  · rw [count]
    exact (List.getElem?_eq_some_iff.mp (getElem?_denseTuples valid inRow)).1
  · intro row tuple inRow named
    rw [dense.read row inRow] at named
    cases named
    rw [getElem?_denseTuples valid inRow]
    cases found : bitmap.listOf? row with
    | none => rw [Option.elim_none,
        zeroTuple_of_not_listed shown inRow (Bitmap.listOf?_eq_none.mp found)]
    | some i => rw [Option.elim_some,
        shown.listed i row ((Bitmap.listOf?_eq_some valid).mp found)]
  · intro row inRow none_
    rw [dense.read row inRow] at none_
    cases none_

end Dense

end Bitmap

end Group

end PackedMatrix
