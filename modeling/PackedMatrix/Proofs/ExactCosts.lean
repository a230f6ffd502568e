import PackedMatrix.Proofs.BuildFailures
import PackedMatrix.Proofs.GroupSizes

namespace PackedMatrix

namespace CostProfile

variable {source : Source} {columns : List Nat} {bitmap : Bitmap} {settings : Settings}
  {encoding : Encoding}

section Numbers

variable {rows : Nat}

theorem isEmpty_ofBitmap (bitmap : Bitmap) (rows blockSize : Nat) :
    (ofBitmap bitmap rows blockSize).isEmpty = true ↔ bitmap.lists = [] := by
  simp [isEmpty, ofBitmap, Bitmap.tuples]

theorem isConst_ofBitmap (fit : bitmap.WellFormed columns.length rows) (blockSize : Nat) :
    (ofBitmap bitmap rows blockSize).isConst = true ↔
      bitmap.tuples = 1 ∧ (bitmap.list 0).length = rows := by
  rw [isConst, Bool.and_eq_true, beq_iff_eq, beq_iff_eq]
  exact and_congr_right fun single => fit.zeros_eq_zero_iff_of_single single

end Numbers

/-- A profile names a size exactly for what is supported. -/
theorem sizeOf_eq_none_iff (fit : bitmap.WellFormed columns.length source.rows) (blockSize : Nat) :
    (ofBitmap bitmap source.rows blockSize).sizeOf encoding = none ↔
      bitmap.lists ≠ [] ∧ ¬ (bitmap.tuples = 1 ∧ (bitmap.list 0).length = source.rows) ∧
        encoding.isRequestable = false := by
  have none_ := isEmpty_ofBitmap bitmap source.rows blockSize
  have one := isConst_ofBitmap fit blockSize
  unfold sizeOf
  by_cases filled : bitmap.lists = []
  · rw [if_pos (none_.mpr filled)]
    exact iff_of_false (fun h => by cases h) fun h => h.1 filled
  · rw [if_neg fun empty => filled (none_.mp empty)]
    by_cases full : bitmap.tuples = 1 ∧ (bitmap.list 0).length = source.rows
    · rw [if_pos (one.mpr full)]
      exact iff_of_false (fun h => by cases h) fun h => h.2.1 full
    · rw [if_neg fun const => full (one.mp const)]
      obtain ⟨i, largest⟩ := Bitmap.exists_isLargest filled
      have found := Bitmap.largest?_eq_of_isLargest largest
      cases encoding with
      | empty => exact iff_of_true rfl ⟨filled, full, rfl⟩
      | const => exact iff_of_true rfl ⟨filled, full, rfl⟩
      | ddc => exact iff_of_false (fun h => by cases h) fun h => by cases h.2.2
      | ole => exact iff_of_false (fun h => by cases h) fun h => by cases h.2.2
      | rle => exact iff_of_false (fun h => by cases h) fun h => by cases h.2.2
      | uncompressed => exact iff_of_false (fun h => by cases h) fun h => by cases h.2.2
      | sdc =>
        refine iff_of_false ?_ fun h => by cases h.2.2
        simp [ofBitmap, SparseShape.forBitmap?, found]

theorem exists_sizeOf (fit : bitmap.WellFormed columns.length source.rows)
    (requestable : encoding.isRequestable = true) (blockSize : Nat) :
    ∃ size, (ofBitmap bitmap source.rows blockSize).sizeOf encoding = some size := by
  refine Option.ne_none_iff_exists'.mp fun none => ?_
  have refused := ((sizeOf_eq_none_iff fit blockSize).mp none).2.2
  rw [requestable] at refused
  cases refused

theorem sizeOf_encodeAs (valid : source.WellFormed) (nonempty : columns ≠ [])
    (sorted : columns.Pairwise (· < ·)) (inside : ∀ col ∈ columns, col < source.cols)
    (fit : bitmap.WellFormed columns.length source.rows) (filled : bitmap.lists ≠ [])
    (mixed : ¬ (bitmap.tuples = 1 ∧ (bitmap.list 0).length = source.rows))
    (shown : bitmap.Shows source.rows (source.tuple columns)) {body : GroupBody}
    (h : Group.encodeAs encoding columns source.rows bitmap settings source = .ok body) :
    (ofBitmap bitmap source.rows settings.offsetBlockSize).sizeOf encoding =
      some (⟨columns, source.rows, body⟩ : Group).size := by
  unfold sizeOf
  rw [if_neg fun empty => filled ((isEmpty_ofBitmap _ _ _).mp empty),
    if_neg fun const => mixed ((isConst_ofBitmap fit _).mp const)]
  have width := fit.width
  cases Group.encodeAs_eq_ok h with
  | ddc => simp only [Group.size_encodeDense fit nonempty, ofBitmap, width]
  | ole offsets made => simp only [Group.size_ole fit nonempty made, ofBitmap, streamSize, width]
  | rle runs made => simp only [Group.size_rle fit nonempty made, ofBitmap, streamSize, width]
  | sdc _ made =>
    obtain ⟨frequent, largest, shape, found, rfl, taken⟩ := Group.size_sparse fit nonempty made
    simp only [taken, ofBitmap, SparseShape.forBitmap?, found, Option.map_some, width]
  | uncompressed block same made =>
    rw [Group.size_uncompressed valid nonempty sorted inside fit shown made]
    simp only [ofBitmap, uncompressedSize, width]

/-- The profile of a bitmap has the size of the group that is built, sorted by frequency or not. -/
theorem sizeOf_of_ofBitmap (valid : source.WellFormed) (nonempty : columns ≠ [])
    (sorted : columns.Pairwise (· < ·)) (inside : ∀ col ∈ columns, col < source.cols)
    (fit : bitmap.WellFormed columns.length source.rows)
    (shown : bitmap.Shows source.rows (source.tuple columns)) {group : Group}
    (h : Group.ofBitmap columns source.rows bitmap encoding settings source = .ok group) :
    (ofBitmap bitmap source.rows settings.offsetBlockSize).sizeOf encoding = some group.size := by
  have none_ := isEmpty_ofBitmap bitmap source.rows settings.offsetBlockSize
  have one := isConst_ofBitmap fit settings.offsetBlockSize
  obtain ⟨_, built⟩ := Group.ofBitmap_eq_ok h
  cases built with
  | empty empty =>
    unfold sizeOf
    rw [if_pos (none_.mpr empty)]
    simp only [ofBitmap, fit.width, Group.size]
  | const filled single full =>
    unfold sizeOf
    rw [if_neg fun empty => filled (none_.mp empty), if_pos (one.mpr ⟨single, full⟩)]
    simp only [ofBitmap, fit.width, Group.size]
  | coded filled mixed body made =>
    unfold Bitmap.ordered at made
    split at made
    next =>
      have single := fit.single_sortByFrequency filled
      rw [← sizeOf_sortByFrequency fit filled shown]
      exact sizeOf_encodeAs valid nonempty sorted inside fit.sortByFrequency
        (Bitmap.sortByFrequency_ne_nil filled) (fun full => mixed (single.mp full))
        (shown.sortByFrequency fit) made
    next => exact sizeOf_encodeAs valid nonempty sorted inside fit filled mixed shown made

/-- The profile of the columns has no size for an encoding exactly if building the group answers
that it is unsupported, and else the size of the group that is built. Whether tuples are sorted by
frequency beforehand matters to neither. -/
theorem sizeOf_exact (valid : source.block.validate = .ok ()) (short : source.block.rows ≤ maxIndex)
    (narrow : source.block.cols ≤ maxIndex) (nonempty : columns ≠ [])
    (sorted : columns.Pairwise (· < ·)) (inside : ∀ col ∈ columns, col < source.cols)
    (settings : Settings) (encoding : Encoding) :
    ∃ bitmap, Bitmap.extract columns source = .ok bitmap ∧ ∀ byFrequency : Bool,
      ((ofBitmap bitmap source.rows settings.offsetBlockSize).sizeOf encoding = none ↔
        ∃ error, Group.ofBitmap columns source.rows bitmap encoding
          { settings with sortByFrequency := byFrequency } source = .error error ∧
            error.isUnsupported = true) ∧
      ∀ group, Group.ofBitmap columns source.rows bitmap encoding
          { settings with sortByFrequency := byFrequency } source = .ok group →
        (ofBitmap bitmap source.rows settings.offsetBlockSize).sizeOf encoding =
          some group.size := by
  have whole : source.WellFormed := ⟨Block.wellFormed_of_validate valid, short, narrow⟩
  have extracted := Bitmap.extract_of_inside whole sorted inside
  obtain ⟨_, _, fit, shown⟩ := Bitmap.extract_eq_ok whole extracted
  refine ⟨_, extracted, fun byFrequency => ⟨?_, ?_⟩⟩
  · rw [sizeOf_eq_none_iff fit, Group.ofBitmap_unsupported_iff whole nonempty sorted inside fit]
  · intro group made
    have taken := sizeOf_of_ofBitmap whole nonempty sorted inside fit shown made
    exact taken

/-- One column in which two of three rows hold the same number. -/
def twoThirds : Source := ⟨⟨3, 1, .dense #[⟨0x3ff0000000000000⟩, ⟨0⟩, ⟨0x3ff0000000000000⟩]⟩, false⟩

/-- The bitmap of that column. -/
def twoThirdsBitmap : Bitmap := ⟨1, #[⟨0x3ff0000000000000⟩], [[0, 2]]⟩

/-- Dense coding of the column takes a second tuple for its zero. -/
theorem sizeOf_exact_twoThirds :
    Bitmap.extract [0] twoThirds = .ok twoThirdsBitmap ∧
      (ofBitmap twoThirdsBitmap 3 1024).sizeOf .ddc = some 87 ∧
      (ofBitmap twoThirdsBitmap 3 1024).sizeOf .const = none := by
  have rows : Bitmap.tupleRows [0] twoThirds =
      [⟨0, [⟨0x3ff0000000000000⟩]⟩, ⟨2, [⟨0x3ff0000000000000⟩]⟩] := by decide +kernel
  have grouped : Bitmap.ofTupleRows 1 (Bitmap.tupleRows [0] twoThirds) = twoThirdsBitmap := by
    simp [rows, Bitmap.ofTupleRows, Grouping.add, Grouping.start, twoThirdsBitmap]
  have extracted : Bitmap.extract [0] twoThirds = .ok twoThirdsBitmap := by
    simp only [Bitmap.extract, List.length_singleton, grouped]
    decide
  have fit : twoThirdsBitmap.WellFormed 1 3 := by
    refine ⟨rfl, rfl, ?_, ?_, ?_, ?_⟩ <;> simp [twoThirdsBitmap]
  have checked : twoThirdsBitmap.validate [0] twoThirds.rows = .ok () :=
    Bitmap.WellFormed.validate fit
  have built : ∀ encoding, Group.ofBitmap [0] twoThirds.rows twoThirdsBitmap encoding
      { sortByFrequency := false } twoThirds =
        (Group.encode [0] twoThirds.rows twoThirdsBitmap encoding { sortByFrequency := false }
          twoThirds).mapError (·.inConstruction [0] encoding) := by
    intro encoding
    rw [Group.ofBitmap, checked]
    rfl
  have sizes := @sizeOf_exact twoThirds [0] (by decide +kernel) (by decide) (by decide) (by decide)
    (by decide) (by decide) {}
  refine ⟨extracted, ?_, ?_⟩
  · obtain ⟨bitmap, same, sizes⟩ := sizes .ddc
    obtain rfl := Except.ok.inj (extracted.symm.trans same)
    exact (sizes false).2 ⟨[0], 3, .ddc ⟨#[⟨0x3ff0000000000000⟩, ⟨0⟩], 1⟩ (.byte #[0, 1, 0])⟩
      (by rw [built]; decide +kernel)
  · obtain ⟨bitmap, same, sizes⟩ := sizes .const
    obtain rfl := Except.ok.inj (extracted.symm.trans same)
    exact (sizes false).1.mpr ⟨_, by rw [built]; rfl, rfl⟩

end CostProfile

end PackedMatrix
