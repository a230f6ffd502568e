import PackedMatrix.Proofs.Extraction
import PackedMatrix.Proofs.SparseGroups

namespace PackedMatrix

namespace Bitmap

/-- The bitmap that is encoded: with the frequent tuples first, if the settings say so. -/
def ordered (bitmap : Bitmap) (settings : Settings) : Bitmap :=
  if settings.sortByFrequency then bitmap.sortByFrequency else bitmap

variable {bitmap : Bitmap}

theorem WellFormed.ordered {columns rows : Nat} (valid : bitmap.WellFormed columns rows)
    (settings : Settings) : (bitmap.ordered settings).WellFormed columns rows := by
  unfold Bitmap.ordered
  split
  next => exact valid.sortByFrequency
  next => exact valid

theorem Shows.ordered {columns rows : Nat} {tupleOf : Nat → List Cell}
    (valid : bitmap.WellFormed columns rows) (shown : bitmap.Shows rows tupleOf)
    (settings : Settings) : (bitmap.ordered settings).Shows rows tupleOf := by
  unfold Bitmap.ordered
  split
  next => exact shown.sortByFrequency valid
  next => exact shown

@[simp]
theorem width_ordered (bitmap : Bitmap) (settings : Settings) :
    (bitmap.ordered settings).width = bitmap.width := by
  unfold Bitmap.ordered
  split
  next => exact width_sortByFrequency bitmap
  next => rfl

theorem ordered_ne_nil (filled : bitmap.lists ≠ []) (settings : Settings) :
    (bitmap.ordered settings).lists ≠ [] := by
  unfold ordered
  split
  next => exact sortByFrequency_ne_nil filled
  next => exact filled

end Bitmap

namespace Group

/-- What a group shows matters inside it only. -/
theorem Shows.congr {group : Group} {a b : Nat → Nat → Cell} (shown : group.Shows a)
    (same : ∀ row col, row < group.rows → col ∈ group.columns → a row col = b row col) :
    group.Shows b := by
  refine ⟨shown.columns, ?_, ?_⟩
  · intro row place inside inRow
    rw [shown.cellAt row place inside inRow, same row _ inRow (List.getElem_mem inside)]
  · intro width within
    obtain ⟨writes, runs, last⟩ := shown.writes width within
    refine ⟨writes, runs, ?_⟩
    intro row col inRow inCol
    obtain ⟨other, own⟩ := last row col inRow inCol
    exact ⟨other, fun member => (own member).trans (same row col inRow member)⟩

section Build

variable {source : Source} {columns : List Nat} {rows : Nat} {bitmap : Bitmap}
  {settings : Settings} {encoding : Encoding}

/-- The groups that can be built from a bitmap, each with what decides that it is built. -/
inductive Built (columns : List Nat) (rows : Nat) (bitmap : Bitmap) (encoding : Encoding)
    (settings : Settings) (source : Source) : Group → Prop
  | empty (none : bitmap.lists = []) :
      Built columns rows bitmap encoding settings source ⟨columns, rows, .empty⟩
  | const (filled : bitmap.lists ≠ []) (single : bitmap.tuples = 1)
      (full : (bitmap.list 0).length = rows) :
      Built columns rows bitmap encoding settings source
        ⟨columns, rows, .const (.ofBitmap bitmap)⟩
  | coded (filled : bitmap.lists ≠ [])
      (mixed : ¬ (bitmap.tuples = 1 ∧ (bitmap.list 0).length = rows)) (body : GroupBody)
      (made : encodeAs encoding columns rows (bitmap.ordered settings) settings source =
        .ok body) :
      Built columns rows bitmap encoding settings source ⟨columns, rows, body⟩

theorem ofBitmap_eq_ok {group : Group}
    (h : ofBitmap columns rows bitmap encoding settings source = .ok group) :
    bitmap.validate columns rows = .ok () ∧
      Built columns rows bitmap encoding settings source group := by
  rw [ofBitmap] at h
  obtain ⟨_, checked, h⟩ := bind_eq_ok (mapError_eq_ok h)
  refine ⟨checked, ?_⟩
  unfold encode at h
  split at h
  next empty =>
    cases h
    exact .empty (List.isEmpty_iff.mp empty)
  next some_ =>
    have filled : bitmap.lists ≠ [] := fun none => some_ (List.isEmpty_iff.mpr none)
    split at h
    next full =>
      unfold Group.const at h
      obtain ⟨_, _, h⟩ := bind_eq_ok h
      split at h
      next => cases h
      next =>
        cases h
        exact .const filled full.1 full.2
    next mixed =>
      obtain ⟨body, made, h⟩ := bind_eq_ok h
      cases h
      exact .coded filled mixed body made

theorem Built.fields {group : Group}
    (built : Built columns rows bitmap encoding settings source group) :
    group.columns = columns ∧ group.rows = rows := by
  cases built with
  | empty none => exact ⟨rfl, rfl⟩
  | const filled single full => exact ⟨rfl, rfl⟩
  | coded filled mixed body made => exact ⟨rfl, rfl⟩

theorem fields_ofColumns {group : Group}
    (h : ofColumns source columns encoding settings = .ok group) :
    group.columns = columns ∧ group.rows = source.rows := by
  obtain ⟨bitmap, _, made⟩ := bind_eq_ok h
  exact (ofBitmap_eq_ok made).2.fields

/-- What a bitmap is encoded to, in each encoding that can be asked for. -/
inductive EncodedAs (columns : List Nat) (rows : Nat) (bitmap : Bitmap) (settings : Settings)
    (source : Source) : Encoding → GroupBody → Prop
  | ddc : EncodedAs columns rows bitmap settings source .ddc (encodeDense bitmap rows)
  | ole (offsets : OffsetStreams)
      (made : OffsetStreams.ofBitmap bitmap settings.offsetBlockSize = .ok offsets) :
      EncodedAs columns rows bitmap settings source .ole (.ole (.ofBitmap bitmap) offsets)
  | rle (runs : RunStreams) (made : RunStreams.ofBitmap bitmap = .ok runs) :
      EncodedAs columns rows bitmap settings source .rle (.rle (.ofBitmap bitmap) runs)
  | sdc (body : GroupBody) (made : SparseShape.encode bitmap rows = .ok body) :
      EncodedAs columns rows bitmap settings source .sdc body
  | uncompressed (block : Block) (same : source.rows = rows)
      (made : source.block.selectColumns columns source.transposed = .ok block) :
      EncodedAs columns rows bitmap settings source .uncompressed (.uncompressed block)

theorem encodeAs_eq_ok {body : GroupBody}
    (h : encodeAs encoding columns rows bitmap settings source = .ok body) :
    EncodedAs columns rows bitmap settings source encoding body := by
  cases encoding with
  | empty => cases h
  | const => cases h
  | ddc =>
    obtain ⟨_, _, h⟩ := bind_eq_ok h
    cases h
    exact .ddc
  | ole =>
    obtain ⟨offsets, made, h⟩ := bind_eq_ok h
    cases h
    exact .ole offsets made
  | rle =>
    obtain ⟨runs, made, h⟩ := bind_eq_ok h
    cases h
    exact .rle runs made
  | sdc => exact .sdc body h
  | uncompressed =>
    rw [encodeAs, guard_eq_ok_iff] at h
    obtain ⟨same, h⟩ := h
    obtain ⟨block, made, h⟩ := bind_eq_ok h
    cases h
    exact .uncompressed block (Decidable.not_not.mp same) made

section Shown

variable {cell : Nat → Nat → Cell} (nonempty : columns ≠ []) (sorted : columns.Pairwise (· < ·))
  (short : rows ≤ maxIndex) (shown : bitmap.Shows rows fun row => columns.map (cell row))
  (copied : encoding = .uncompressed → source.WellFormed ∧ (∀ col ∈ columns, col < source.cols) ∧
    cell = source.cell)

include nonempty sorted short shown copied

/-- The body in the encoding that was asked for shows the cells of the bitmap. A copy of the columns
does not look at the bitmap, and shows the cells of the source. -/
theorem shows_encodeAs (fit : bitmap.WellFormed columns.length rows) (filled : bitmap.lists ≠ [])
    {body : GroupBody}
    (h : encodeAs encoding columns rows bitmap settings source = .ok body) :
    (⟨columns, rows, body⟩ : Group).Shows cell := by
  cases encodeAs_eq_ok h with
  | ddc => exact shows_encodeDense nonempty sorted fit short shown filled
  | ole offsets made => exact shows_ole nonempty sorted fit shown made
  | rle runs made => exact shows_rle nonempty sorted fit shown made
  | sdc _ made => exact shows_sparse nonempty sorted fit shown short made
  | uncompressed block same made =>
    obtain ⟨valid, inside, rfl⟩ := copied rfl
    subst same
    obtain ⟨copy, found, stored, rows, cols, cells, _⟩ :=
      Block.selectColumns_eq_ok valid nonempty sorted inside
    obtain rfl : copy = block := Except.ok.inj (found.symm.trans made)
    have shows := shows_uncompressed stored cols sorted
      fun row place within inRow => cells row place within (rows ▸ inRow)
    rwa [rows] at shows

theorem Built.shows (fit : bitmap.lists ≠ [] → bitmap.WellFormed columns.length rows)
    {group : Group} (built : Built columns rows bitmap encoding settings source group) :
    group.Shows cell := by
  cases built with
  | empty none =>
    refine shows_empty sorted ?_
    intro row inRow col member
    exact zero_of_not_listed shown inRow (by simp [none]) member
  | const filled single full => exact shows_const nonempty sorted (fit filled) shown single full
  | coded filled mixed body made =>
    have valid := fit filled
    exact shows_encodeAs nonempty sorted short (shown.ordered valid settings) copied
      (valid.ordered settings) (Bitmap.ordered_ne_nil filled settings) made

end Shown

theorem shows_ofColumns (valid : source.WellFormed) {group : Group}
    (h : ofColumns source columns encoding settings = .ok group) (nonempty : group.columns ≠ []) :
    group.rows = source.rows ∧ group.Shows source.cell := by
  obtain ⟨named, rows⟩ := fields_ofColumns h
  rw [named] at nonempty
  obtain ⟨bitmap, extracted, made⟩ := bind_eq_ok h
  obtain ⟨sorted, inside, fit, shown⟩ := Bitmap.extract_eq_ok valid (mapError_eq_ok extracted)
  exact ⟨rows, (ofBitmap_eq_ok made).2.shows nonempty sorted (Source.rows_le valid) shown
    (fun _ => ⟨valid, inside, rfl⟩) fun _ => fit⟩

/-- A column of a transposed sparse block that stores nothing is zero. -/
theorem zero_of_isColumnEmpty (valid : source.WellFormed) (transposed : source.transposed = true)
    (sparse : source.block.isSparse = true) {row col : Nat} (inRow : row < source.rows)
    (inCol : col < source.cols) (empty : source.isColumnEmpty col = true) :
    source.cell row col = Cell.zero := by
  obtain ⟨block, swapped⟩ := source
  obtain rfl : swapped = true := transposed
  cases data : block.data with
  | dense cells => simp [Block.isSparse, data] at sparse
  | sparse stored =>
    have fit := (Block.wellFormed_sparse data).mp valid.block
    have none : stored.rowColumns col = [] := by
      simpa [Source.isColumnEmpty, Block.isRowEmpty, data] using empty
    have bound : col < block.rows := inCol
    have low : row ≤ maxIndex := Nat.le_of_lt (Nat.lt_of_lt_of_le inRow (Source.rows_le valid))
    simp only [Source.cell, Block.cell, data, ↓reduceIte]
    exact fit.cell_of_not_mem bound low (by rw [none]; simp)

/-- Several columns of a transposed sparse block are asked for, and some of them are empty. -/
structure Splits (source : Source) (plan : ColumnPlan) : Prop where
  transposed : source.transposed = true
  sparse : source.block.isSparse = true
  several : plan.columns.length > 1
  empty : plan.columns.filter source.isColumnEmpty ≠ []

theorem ofPlan_of_splits {plan : ColumnPlan} (splits : Splits source plan) :
    ofPlan source settings plan =
      splitEmpty source settings plan (plan.columns.filter source.isColumnEmpty) := by
  have some_ : (plan.columns.filter source.isColumnEmpty).isEmpty = false := by
    simpa using splits.empty
  simp only [ofPlan, splits.transposed, splits.sparse, splits.several, Bool.true_and, decide_true,
    ↓reduceIte, some_, Bool.false_eq_true]

theorem ofPlan_of_not_splits {plan : ColumnPlan} (whole : ¬ Splits source plan) :
    ofPlan source settings plan = (do
      let group ← ofColumns source plan.columns plan.encoding settings
      pure [group]) := by
  unfold ofPlan
  simp only
  split
  next several =>
    simp only [Bool.and_eq_true, decide_eq_true_eq] at several
    obtain ⟨⟨transposed, sparse⟩, many⟩ := several
    have none : plan.columns.filter source.isColumnEmpty = [] := by
      by_contra some_
      exact whole ⟨transposed, sparse, many, some_⟩
    rw [none]
    rfl
  next => rfl

theorem shows_ofPlan (valid : source.WellFormed) {plan : ColumnPlan} {groups : List Group}
    (h : ofPlan source settings plan = .ok groups) {group : Group} (member : group ∈ groups)
    (nonempty : group.columns ≠ []) (sorted : group.columns.Pairwise (· < ·))
    (inside : ∀ col ∈ group.columns, col < source.cols) :
    group.rows = source.rows ∧ group.Shows source.cell := by
  by_cases splits : Splits source plan
  · have first : group = ⟨plan.columns.filter source.isColumnEmpty, source.rows, .empty⟩ →
        group.rows = source.rows ∧ group.Shows source.cell := by
      rintro rfl
      refine ⟨rfl, shows_empty sorted ?_⟩
      intro row inRow col listed
      exact zero_of_isColumnEmpty valid splits.transposed splits.sparse inRow (inside col listed)
        (List.mem_filter.mp listed).2
    rw [ofPlan_of_splits splits, splitEmpty] at h
    split at h
    next =>
      cases h
      exact first (List.mem_singleton.mp member)
    next =>
      obtain ⟨second, run, h⟩ := bind_eq_ok h
      cases h
      rcases List.mem_cons.mp member with here | later
      · exact first here
      · obtain rfl := List.mem_singleton.mp later
        exact shows_ofColumns valid run nonempty
  · rw [ofPlan_of_not_splits splits] at h
    obtain ⟨made, run, h⟩ := bind_eq_ok h
    cases h
    obtain rfl := List.mem_singleton.mp member
    exact shows_ofColumns valid run nonempty

theorem shows_ofPlans (valid : source.WellFormed) {plans : List ColumnPlan} {groups : List Group}
    (h : ofPlans source settings plans = .ok groups) {group : Group} (member : group ∈ groups)
    (nonempty : group.columns ≠ []) (sorted : group.columns.Pairwise (· < ·))
    (inside : ∀ col ∈ group.columns, col < source.cols) :
    group.rows = source.rows ∧ group.Shows source.cell := by
  obtain ⟨parts, made, h⟩ := bind_eq_ok h
  cases h
  rw [List.flatMap_id] at member
  obtain ⟨part, listed, here⟩ := List.mem_flatten.mp member
  obtain ⟨plan, _, run⟩ := exists_of_mem_mapM made listed
  exact shows_ofPlan valid run here nonempty sorted inside

end Build

end Group

end PackedMatrix
