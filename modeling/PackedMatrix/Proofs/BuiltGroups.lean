import PackedMatrix.Proofs.DisjointMerges
import PackedMatrix.Proofs.BuiltStreams
import PackedMatrix.Proofs.GroupBuilds
import PackedMatrix.Proofs.GroupChecks

namespace PackedMatrix

namespace Dictionary

theorem exists_moveFrequentToLast {dictionary : Dictionary} (bitmap : Bitmap) (rows : Nat)
    {frequent : Nat} (inside : frequent < dictionary.tuples) :
    ∃ moved, dictionary.moveFrequentToLast bitmap rows frequent = .ok moved := by
  have named : ¬ frequent ≥ dictionary.tuples := Nat.not_le.mpr inside
  unfold moveFrequentToLast
  simp only [count_eq_of_pos (Nat.zero_lt_of_lt inside), mapError_ok, bind, Except.bind,
    if_neg named]
  split
  next => exact ⟨_, rfl⟩
  next => exact ⟨_, rfl⟩

end Dictionary

namespace SparseShape

variable {bitmap : Bitmap} {columns rows : Nat}

theorem exists_encode (valid : bitmap.WellFormed columns rows) (positive : 0 < columns)
    (filled : bitmap.lists ≠ []) : ∃ body, encode bitmap rows = .ok body := by
  obtain ⟨frequent, largest⟩ := Bitmap.exists_isLargest filled
  have count := (Dictionary.holds_ofBitmap valid).tuples_eq positive
  rw [Dictionary.length_tuplesOf] at count
  have inside : frequent < (Dictionary.ofBitmap bitmap).tuples := count ▸ largest.inside
  obtain ⟨moved, moving⟩ := Dictionary.exists_moveFrequentToLast bitmap rows inside
  obtain ⟨merged, merging⟩ := Merger.exists_insert valid.disjoint
    (Merger.chooseStrategy bitmap.offsets rows)
  obtain ⟨others, excluding⟩ := Merger.exists_insertExcluding valid.disjoint
    (Merger.chooseStrategy (rows - (bitmap.list frequent).length) rows) largest.inside
  rw [encode, forBitmap?, Bitmap.largest?_eq_of_isLargest largest, Option.map_some]
  cases choose bitmap.tuples (bitmap.zeros rows) (bitmap.list frequent).length with
  | singleZeros => exact ⟨_, rfl⟩
  | single => exact ⟨_, by simp only [moving]; rfl⟩
  | zeros => exact ⟨_, by simp only [Merger.forEntries, merging]; rfl⟩
  | general => exact ⟨_, by simp only [Merger.forEntries, moving, excluding]; rfl⟩

end SparseShape

namespace Group

section Bitmap

variable {columns : List Nat} {rows : Nat} {bitmap : Bitmap}
  (valid : bitmap.WellFormed columns.length rows)

section Parts

include valid

theorem tuples_ofBitmap (nonempty : columns ≠ []) :
    (Dictionary.ofBitmap bitmap).tuples = bitmap.tuples := by
  rw [(Dictionary.holds_ofBitmap valid).tuples_eq (List.length_pos_iff.mpr nonempty),
    Dictionary.length_tuplesOf]

variable (short : rows ≤ maxIndex)

include short

/-- The index of the rows that a shape lists passes, with a code for each of them if there are
codes. -/
theorem checkIndex_explicitRows (shape : SparseShape) (frequent : Nat) (codes? : Option CodeMap)
    (length : ∀ codes ∈ codes?, codes.length =
      (shape.explicitRows bitmap rows frequent).length) :
    checkIndex rows (.ofRows (shape.explicitRows bitmap rows frequent)) codes? = .ok () := by
  have order := SparseShape.increasing_explicitRows valid shape frequent
  have within : ∀ row ∈ shape.explicitRows bitmap rows frequent, row < rows :=
    fun row member => SparseShape.lt_of_mem_explicitRows valid member
  obtain ⟨place, lists⟩ := lists_explicitRows valid short shape frequent
  have passes := RowIndex.check_ofRows order fun row member =>
    Nat.le_of_lt (Nat.lt_of_lt_of_le (within row member) short)
  exact checkIndex_of_lists passes lists order within length

/-- Codes in a list that name tuples are stored in a map of their number. -/
theorem coded_ofList {codes : List Nat} {tuples : Nat} (more : bitmap.tuples ≤ tuples)
    (small : ∀ code ∈ codes, code < bitmap.tuples) :
    (CodeMap.ofList bitmap.tuples codes).Sized ∧
      ∀ code ∈ (CodeMap.ofList bitmap.tuples codes).toList, code < tuples := by
  have few : bitmap.tuples ≤ UInt32.size := Nat.le_of_lt (valid.tuples_lt_size short)
  refine ⟨CodeMap.sized_ofList _ _, CodeMap.lt_of_mem_toList fun i inside => ?_⟩
  rw [CodeMap.length_ofList] at inside
  exact ⟨codes[i], CodeMap.get?_ofList few small inside,
    Nat.lt_of_lt_of_le (small _ (List.getElem_mem inside)) more⟩

end Parts

variable (nonempty : columns ≠ []) (sorted : columns.Pairwise (· < ·))

include nonempty sorted

theorem accepted_empty : (⟨columns, rows, .empty⟩ : Group).Accepted :=
  ⟨nonempty, sorted, (fun _ none => nomatch none), (fun _ none => nomatch none), rfl,
    (fun _ _ none => nomatch none)⟩

theorem accepted_uncompressed {block : Block} (stored : block.WellFormed)
    (wide : block.cols = columns.length) :
    (⟨columns, block.rows, .uncompressed block⟩ : Group).Accepted := by
  exact ⟨nonempty, sorted, (fun _ none => nomatch none), (fun _ none => nomatch none),
    checkBody_uncompressed_iff.mpr ⟨stored.validate, rfl, wide⟩, (fun _ _ none => nomatch none)⟩

include valid

theorem accepted_const (single : bitmap.tuples = 1) :
    (⟨columns, rows, .const (.ofBitmap bitmap)⟩ : Group).Accepted := by
  have count := tuples_ofBitmap valid nonempty
  exact .of_holds nonempty sorted rfl (Dictionary.holds_ofBitmap valid)
    (fun _ none => nomatch none) (checkBody_const_iff.mpr (count.trans single))

theorem accepted_ole {blockSize : Nat} {offsets : OffsetStreams}
    (made : OffsetStreams.ofBitmap bitmap blockSize = .ok offsets) :
    (⟨columns, rows, .ole (.ofBitmap bitmap) offsets⟩ : Group).Accepted := by
  have count := tuples_ofBitmap valid nonempty
  refine .of_holds nonempty sorted rfl (Dictionary.holds_ofBitmap valid)
    (fun _ none => nomatch none) ?_
  simp only [checkBody, count, OffsetStreams.check_ofBitmap valid made, mapError_ok]

theorem accepted_rle {runs : RunStreams} (made : RunStreams.ofBitmap bitmap = .ok runs) :
    (⟨columns, rows, .rle (.ofBitmap bitmap) runs⟩ : Group).Accepted := by
  have count := tuples_ofBitmap valid nonempty
  refine .of_holds nonempty sorted rfl (Dictionary.holds_ofBitmap valid)
    (fun _ none => nomatch none) ?_
  simp only [checkBody, count, RunStreams.check_ofBitmap valid made, mapError_ok]

variable (short : rows ≤ maxIndex)

include short

theorem accepted_encodeDense (filled : bitmap.lists ≠ []) :
    (⟨columns, rows, encodeDense bitmap rows⟩ : Group).Accepted := by
  obtain ⟨dictionary, codes, made, dense⟩ := exists_denseCodes nonempty valid short filled
  rw [made]
  refine .of_holds nonempty sorted rfl dense.holds ?_ (checkBody_ddc_iff.mpr dense.length)
  rintro _ ⟨⟩
  refine ⟨dense.sized, CodeMap.lt_of_mem_toList fun row inside => ?_⟩
  have inRow : row < rows := dense.length ▸ inside
  exact ⟨_, dense.read row inRow,
    (List.getElem?_eq_some_iff.mp (getElem?_denseTuples valid inRow)).1⟩

theorem accepted_sparse {body : GroupBody} (h : SparseShape.encode bitmap rows = .ok body) :
    (⟨columns, rows, body⟩ : Group).Accepted := by
  have positive : 0 < columns.length := List.length_pos_iff.mpr nonempty
  have count := tuples_ofBitmap valid nonempty
  have holds := Dictionary.holds_ofBitmap valid
  obtain ⟨frequent, largest, found, encoded⟩ := SparseShape.encode_eq_ok valid h
  obtain ⟨first, longest⟩ := Bitmap.largest?_eq_some found
  obtain ⟨one, few, fewer⟩ := SparseShape.choose_spec bitmap.tuples (bitmap.zeros rows) largest
  generalize SparseShape.choose bitmap.tuples (bitmap.zeros rows) largest = shape
    at encoded one few fewer
  have passes := checkIndex_explicitRows valid short shape frequent
  cases encoded with
  | singleZeros =>
    refine .of_holds nonempty sorted rfl holds (fun _ none => nomatch none) ?_
    exact checkBody_sdcSingleZeros_iff.mpr
      ⟨count.trans (one rfl), passes none fun _ none => nomatch none⟩
  | single moved moving =>
    obtain ⟨only, less⟩ := few rfl
    obtain ⟨inside, larger, moves⟩ := moved_bounds nonempty valid (by omega) moving
    refine .of_holds nonempty sorted rfl moves (fun _ none => nomatch none) ?_
    have most : moved.dictionary.tuples ≤ 2 := by
      rw [moves.tuples_eq positive, Dictionary.length_movedTuples
        (by rwa [Dictionary.length_tuplesOf]), Dictionary.length_tuplesOf, only]
      split <;> omega
    exact checkBody_sdcSingle_iff.mpr
      ⟨⟨by omega, most⟩, passes none fun _ none => nomatch none⟩
  | zeros codes length named =>
    have small := lt_of_mem_codes length named fun _ _ => Bitmap.lt_tuples_of_mem_list
    have coded := coded_ofList valid short (Nat.le_refl _) small
    refine .of_holds nonempty sorted rfl holds ?_ ?_
    · rintro _ ⟨⟩
      rwa [Dictionary.length_tuplesOf]
    · refine passes (some _) ?_
      rintro _ ⟨⟩
      rw [CodeMap.length_ofList, length]
  | general moved codes moving length named =>
    have less := fewer rfl
    obtain ⟨inside, larger, moves⟩ := moved_bounds nonempty valid (by omega) moving
    have small := lt_of_mem_codes length named fun _ _ => lt_of_outside inside
    have coded := coded_ofList valid short larger small
    refine .of_holds nonempty sorted rfl moves ?_ ?_
    · rintro _ ⟨⟩
      rwa [← moves.tuples_eq positive]
    · refine checkBody_sdc_iff.mpr ⟨by omega, passes (some _) ?_⟩
      rintro _ ⟨⟩
      rw [CodeMap.length_ofList, length]

end Bitmap

section Build

variable {source : Source} {columns : List Nat} {rows : Nat} {bitmap : Bitmap}
  {settings : Settings} {encoding : Encoding} (nonempty : columns ≠ [])
  (sorted : columns.Pairwise (· < ·)) (short : rows ≤ maxIndex)
  (copied : encoding = .uncompressed → source.WellFormed ∧ ∀ col ∈ columns, col < source.cols)

include nonempty sorted short copied

theorem accepted_encodeAs (fit : bitmap.WellFormed columns.length rows)
    (filled : bitmap.lists ≠ []) {body : GroupBody}
    (h : encodeAs encoding columns rows bitmap settings source = .ok body) :
    (⟨columns, rows, body⟩ : Group).Accepted := by
  cases encodeAs_eq_ok h with
  | ddc => exact accepted_encodeDense fit nonempty sorted short filled
  | ole offsets made => exact accepted_ole fit nonempty sorted made
  | rle runs made => exact accepted_rle fit nonempty sorted made
  | sdc _ made => exact accepted_sparse fit nonempty sorted short made
  | uncompressed block same made =>
    obtain ⟨valid, inside⟩ := copied rfl
    subst same
    obtain ⟨copy, found, stored, rows, cols, _⟩ :=
      Block.selectColumns_eq_ok valid nonempty sorted inside
    obtain rfl : copy = block := Except.ok.inj (found.symm.trans made)
    have accepted := accepted_uncompressed nonempty sorted stored cols
    rwa [rows] at accepted

theorem Built.accepted (fit : bitmap.lists ≠ [] → bitmap.WellFormed columns.length rows)
    {group : Group} (built : Built columns rows bitmap encoding settings source group) :
    group.Accepted := by
  cases built with
  | empty none => exact accepted_empty nonempty sorted
  | const filled single full => exact accepted_const (fit filled) nonempty sorted single
  | coded filled mixed body made =>
    exact accepted_encodeAs nonempty sorted short copied ((fit filled).ordered settings)
      (Bitmap.ordered_ne_nil filled settings) made

end Build

theorem accepted_ofColumns {source : Source} {columns : List Nat} {encoding : Encoding}
    {settings : Settings} (valid : source.WellFormed) (nonempty : columns ≠ []) {group : Group}
    (h : ofColumns source columns encoding settings = .ok group) : group.Accepted := by
  obtain ⟨bitmap, extracted, made⟩ := bind_eq_ok h
  obtain ⟨sorted, inside, fit, _⟩ := Bitmap.extract_eq_ok valid (mapError_eq_ok extracted)
  exact (ofBitmap_eq_ok made).2.accepted nonempty sorted (Source.rows_le valid)
    (fun _ => ⟨valid, inside⟩) fun _ => fit

end Group

end PackedMatrix
