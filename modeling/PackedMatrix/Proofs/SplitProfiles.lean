import PackedMatrix.Proofs.ExactCosts

namespace PackedMatrix

namespace Grouping

/-- Grouping by a part that tells the tuples apart makes the same lists. -/
theorem foldl_add_parts (part : List Cell → List Cell) (items : List TupleRow)
    (apart : ∀ a ∈ items, ∀ b ∈ items, part a.tuple = part b.tuple → a.tuple = b.tuple) :
    ((items.map fun item => (⟨item.row, part item.tuple⟩ : TupleRow)).foldl add start).tuples =
        (items.foldl add start).tuples.map part ∧
      ((items.map fun item => (⟨item.row, part item.tuple⟩ : TupleRow)).foldl add start).lists =
        (items.foldl add start).lists := by
  induction items using List.reverseRecOn with
  | nil => simp [start]
  | append_singleton items item ih =>
    have known := fun a (here : a ∈ items) b (there : b ∈ items) =>
      apart a (List.mem_append_left _ here) b (List.mem_append_left _ there)
    have last := fun a (here : a ∈ items) =>
      apart a (List.mem_append_left _ here) item (by simp)
    obtain ⟨tuples, lists⟩ := ih known
    have whole := invariant_foldl invariant_start items
    have parts := invariant_foldl invariant_start
      (items.map fun item => (⟨item.row, part item.tuple⟩ : TupleRow))
    rw [List.nil_append] at whole parts
    rw [List.map_append, List.foldl_append, List.foldl_append, List.map_singleton, List.foldl_cons,
      List.foldl_cons, List.foldl_nil, List.foldl_nil]
    generalize items.foldl add start = made at *
    generalize (items.map fun item => (⟨item.row, part item.tuple⟩ : TupleRow)).foldl add start =
      made' at *
    have same : made'.places[part item.tuple]? = made.places[item.tuple]? := by
      refine Option.ext fun place => ?_
      rw [parts.places, whole.places, tuples, Array.getElem?_map]
      constructor
      · intro found
        obtain ⟨tuple, here, equal⟩ := Option.map_eq_some_iff.mp found
        obtain ⟨other, among, rfl⟩ := whole.used tuple (Array.mem_of_getElem? here)
        rw [here, last other among equal]
      · intro found
        rw [found]
        rfl
    unfold add
    simp only [same]
    cases made.places[item.tuple]? with
    | some place => exact ⟨tuples, by rw [lists]⟩
    | none => exact ⟨by rw [tuples, Array.map_push], by rw [lists]⟩

end Grouping

namespace Source

variable {source : Source} {columns : List Nat} {keep : Nat → Bool}

/-- The cells of a tuple at the columns that are kept. -/
def part (columns : List Nat) (keep : Nat → Bool) (tuple : List Cell) : List Cell :=
  ((columns.zip tuple).filter fun place => keep place.1).map Prod.snd

theorem part_tuple (source : Source) (columns : List Nat) (keep : Nat → Bool) (row : Nat) :
    part columns keep (source.tuple columns row) = source.tuple (columns.filter keep) row := by
  unfold part tuple
  induction columns with
  | nil => rfl
  | cons col rest ih =>
    rw [List.map_cons, List.zip_cons_cons, List.filter_cons, List.filter_cons]
    cases keep col with
    | true => simp only [↓reduceIte, List.map_cons, ih]
    | false => simpa using ih

section Kept

variable (zero : ∀ col ∈ columns, keep col = false → ∀ row, row < source.rows →
  source.cell row col = Cell.zero)

include zero

/-- Rows that agree at the columns that are kept agree at all of them. -/
theorem tuple_eq_of_filter {row other : Nat} (inRow : row < source.rows)
    (inRow' : other < source.rows)
    (same : source.tuple (columns.filter keep) row = source.tuple (columns.filter keep) other) :
    source.tuple columns row = source.tuple columns other := by
  apply List.map_congr_left
  intro col member
  cases kept : keep col with
  | true => exact List.map_inj_left.mp same col (List.mem_filter.mpr ⟨member, kept⟩)
  | false => rw [zero col member kept row inRow, zero col member kept other inRow']

/-- Columns of zeros add no cells that are not zero. -/
theorem countP_tuple_filter {row : Nat} (inRow : row < source.rows) :
    (source.tuple (columns.filter keep) row).countP (!·.isZero) =
      (source.tuple columns row).countP (!·.isZero) := by
  rw [tuple, tuple, List.countP_map, List.countP_map, List.countP_filter]
  apply List.countP_congr
  intro col member
  cases kept : keep col with
  | true => simp
  | false => simp [zero col member kept row inRow, Cell.isZero_iff]

theorem isZeroTuple_filter {row : Nat} (inRow : row < source.rows) :
    isZeroTuple (source.tuple (columns.filter keep) row) =
      isZeroTuple (source.tuple columns row) := by
  have counted := countP_tuple_filter zero inRow
  have all : ∀ cells : List Cell, isZeroTuple cells = true ↔ cells.countP (!·.isZero) = 0 := by
    intro cells
    simp [isZeroTuple, List.countP_eq_zero]
  rw [Bool.eq_iff_iff, all, all, counted]

/-- The rows that are shown are the same, with the parts of their tuples. -/
theorem shownFrom_filter : source.shownFrom (columns.filter keep) 0 =
    (source.shownFrom columns 0).map fun item =>
      (⟨item.row, part columns keep item.tuple⟩ : TupleRow) := by
  rw [shownFrom, shownFrom, TupleRow.nonzeroFrom, TupleRow.nonzeroFrom, List.map_filterMap]
  apply List.filterMap_congr
  intro row member
  have inRow : row < source.rows := by
    have := (List.mem_range'_1.mp member).2
    omega
  unfold TupleRow.nonzero?
  rw [isZeroTuple_filter zero inRow]
  split
  next => rfl
  next => rw [Option.map_some, part_tuple]

theorem lists_filter (valid : source.WellFormed) (sorted : columns.Pairwise (· < ·))
    (inside : ∀ col ∈ columns, col < source.cols) :
    (Bitmap.ofTupleRows (columns.filter keep).length
        (Bitmap.tupleRows (columns.filter keep) source)).lists =
      (Bitmap.ofTupleRows columns.length (Bitmap.tupleRows columns source)).lists := by
  have inside' : ∀ col ∈ columns.filter keep, col < source.cols :=
    fun col member => inside col (List.mem_filter.mp member).1
  rw [Bitmap.tupleRows_eq valid sorted inside,
    Bitmap.tupleRows_eq valid (sorted.filter _) inside', shownFrom_filter zero]
  have grouped := Grouping.foldl_add_parts (part columns keep) (source.shownFrom columns 0) (by
    intro a here b there same
    obtain ⟨inRow, tuple, _⟩ := mem_shownFrom.mp here
    obtain ⟨inRow', tuple', _⟩ := mem_shownFrom.mp there
    rw [tuple, tuple', part_tuple, part_tuple] at same
    rw [tuple, tuple', tuple_eq_of_filter zero inRow inRow' same])
  simp only [Bitmap.ofTupleRows, grouped.2]

end Kept

end Source

namespace CostProfile

/-- The profile of columns of a source. -/
def ofColumns (source : Source) (columns : List Nat) (blockSize : Nat) : CostProfile :=
  ofBitmap (Bitmap.ofTupleRows columns.length (Bitmap.tupleRows columns source)) source.rows
    blockSize

/-- A profile depends on the lists, the width and the number of cells that are not zero. -/
theorem ofBitmap_congr {a b : Bitmap} (lists : a.lists = b.lists) (rows blockSize : Nat)
    (nonZeros : (ofBitmap a rows blockSize).nonZeros = (ofBitmap b rows blockSize).nonZeros) :
    ofBitmap a rows blockSize = { ofBitmap b rows blockSize with columns := a.width } := by
  have listed : ∀ (shape : SparseShape) (frequent : Nat),
      shape.explicitRows a rows frequent = shape.explicitRows b rows frequent := by
    intro shape frequent
    cases shape <;> simp only [SparseShape.explicitRows, Bitmap.list, lists]
  simp only [ofBitmap, lists] at nonZeros
  simp only [ofBitmap, Bitmap.tuples, Bitmap.offsets, Bitmap.zeros, Bitmap.largest?,
    SparseShape.forBitmap?, lists, listed, nonZeros]

/-- Without columns that are zero, the profile has fewer columns and else the same numbers. -/
theorem ofColumns_filter {source : Source} {columns : List Nat} {keep : Nat → Bool}
    (valid : source.WellFormed) (sorted : columns.Pairwise (· < ·))
    (inside : ∀ col ∈ columns, col < source.cols)
    (zero : ∀ col ∈ columns, keep col = false → ∀ row, row < source.rows →
      source.cell row col = Cell.zero) (blockSize : Nat) :
    ofColumns source (columns.filter keep) blockSize =
      { ofColumns source columns blockSize with columns := (columns.filter keep).length } := by
  have inside' : ∀ col ∈ columns.filter keep, col < source.cols :=
    fun col member => inside col (List.mem_filter.mp member).1
  obtain ⟨_, _, fit, shown⟩ :=
    Bitmap.extract_eq_ok valid (Bitmap.extract_of_inside valid sorted inside)
  obtain ⟨_, _, fit', shown'⟩ :=
    Bitmap.extract_eq_ok valid (Bitmap.extract_of_inside valid (sorted.filter keep) inside')
  refine ofBitmap_congr (Source.lists_filter zero valid sorted inside) _ _ ?_
  simp only [ofBitmap]
  rw [shown.total_nonZeros fit, shown'.total_nonZeros fit']
  congr 1
  apply List.map_congr_left
  intro row member
  exact Source.countP_tuple_filter zero (List.mem_range.mp member)

end CostProfile

end PackedMatrix
