import PackedMatrix.Proofs.DictionaryTuples
import PackedMatrix.Proofs.Extraction

namespace PackedMatrix

namespace Grouping

/-- A row of the second tuple only comes behind one of the first tuple. -/
def Precedes (met : List TupleRow) (a b : List Cell) : Prop :=
  ∀ row, ⟨row, b⟩ ∈ met → ∃ first, ⟨first, a⟩ ∈ met ∧ first < row

/-- Tuples are numbered as they first appear among the rows that were met. -/
def InOrder (grouping : Grouping) (met : List TupleRow) : Prop :=
  grouping.tuples.toList.Pairwise (Precedes met)

variable {grouping : Grouping} {met : List TupleRow} {item : TupleRow}

/-- A tuple that was met stays in front when a row is added behind all others. -/
theorem Invariant.precedes_append (holds : grouping.Invariant met)
    (behind : ∀ other ∈ met, other.row < item.row) {a b : List Cell} (known : a ∈ grouping.tuples)
    (before : Precedes met a b) : Precedes (met ++ [item]) a b := by
  intro row member
  rcases List.mem_append.mp member with old | new
  · obtain ⟨first, there, less⟩ := before row old
    exact ⟨first, List.mem_append_left _ there, less⟩
  · obtain ⟨other, there, rfl⟩ := holds.used a known
    have last := List.mem_singleton.mp new
    refine ⟨other.row, List.mem_append_left _ there, ?_⟩
    rw [show row = item.row from congrArg TupleRow.row last]
    exact behind other there

theorem Invariant.inOrder_add (holds : grouping.Invariant met) (order : grouping.InOrder met)
    (behind : ∀ other ∈ met, other.row < item.row) :
    (grouping.add item).InOrder (met ++ [item]) := by
  have kept : grouping.tuples.toList.Pairwise (Precedes (met ++ [item])) :=
    order.imp_of_mem fun first _ before =>
      holds.precedes_append behind (Array.mem_toList_iff.mp first) before
  cases found : grouping.places[item.tuple]? with
  | some place => simpa only [InOrder, Grouping.add, found] using kept
  | none =>
    simp only [InOrder, Grouping.add, found, Array.toList_push]
    refine List.pairwise_append.mpr ⟨kept, List.pairwise_singleton _ _, ?_⟩
    intro a member b new
    rw [List.mem_singleton.mp new]
    refine holds.precedes_append behind (Array.mem_toList_iff.mp member) fun row listed => ?_
    obtain ⟨place, here⟩ := Array.mem_iff_getElem?.mp (holds.known _ listed)
    rw [(holds.places _ place).mpr here] at found
    cases found

theorem Invariant.inOrder_foldl (holds : grouping.Invariant met) (order : grouping.InOrder met)
    {items : List TupleRow} (increasing : ((met ++ items).map TupleRow.row).Pairwise (· < ·)) :
    (items.foldl Grouping.add grouping).InOrder (met ++ items) := by
  induction items generalizing grouping met with
  | nil => simpa using order
  | cons item rest ih =>
    rw [← List.singleton_append, ← List.append_assoc] at increasing ⊢
    have behind : ∀ other ∈ met, other.row < item.row := by
      intro other member
      have pairs := List.pairwise_append.mp (List.pairwise_append.mp (List.pairwise_map.mp
        increasing)).1
      exact pairs.2.2 other member item (List.mem_singleton_self item)
    exact ih (holds.add item) (holds.inOrder_add order behind) increasing

end Grouping

namespace Bitmap

/-- The first of two lists begins with a row in front of that of the second. -/
def BeginsBefore (a b : List Nat) : Prop := ∃ x ∈ a.head?, ∃ y ∈ b.head?, x < y

/-- Grouped rows that increase give lists in the order of their first rows. -/
theorem beginsBefore_ofTupleRows (width : Nat) {items : List TupleRow}
    (increasing : (items.map TupleRow.row).Pairwise (· < ·)) :
    (ofTupleRows width items).lists.Pairwise BeginsBefore := by
  have holds := Grouping.invariant_foldl Grouping.invariant_start items
  have order : Grouping.start.InOrder [] := List.Pairwise.nil
  have ordered := Grouping.invariant_start.inOrder_foldl order increasing
  rw [List.nil_append] at holds ordered
  rw [ofTupleRows_eq_grouping, List.pairwise_map]
  refine ordered.imp_of_mem fun {a b} first second before => ?_
  obtain ⟨item, listed, rfl⟩ := holds.used b (Array.mem_toList_iff.mp second)
  have sorted := TupleRow.increasing_rowsOf a increasing
  cases rows : TupleRow.rowsOf items item.tuple with
  | nil =>
    have member := TupleRow.mem_rowsOf.mpr listed
    rw [rows] at member
    cases member
  | cons y rest =>
    obtain ⟨row, there, less⟩ := before y (TupleRow.mem_rowsOf.mp (by simp [rows]))
    have member := TupleRow.mem_rowsOf.mpr there
    cases head : TupleRow.rowsOf items a with
    | nil =>
      rw [head] at member
      cases member
    | cons x others =>
      refine ⟨x, rfl, y, rfl, ?_⟩
      rw [head] at member sorted
      rcases List.mem_cons.mp member with rfl | later
      · exact less
      · exact Nat.lt_trans ((List.pairwise_cons.mp sorted).1 row later) less

/-- The rows are grouped by their tuples, rows of zeros are left out, and the lists begin in the
order in which the tuples first appear. -/
structure Canonical (bitmap : Bitmap) (columns rows : Nat) (tupleOf : Nat → List Cell) : Prop where
  wellFormed : bitmap.WellFormed columns rows
  nonzero : ∀ i, i < bitmap.tuples → isZeroTuple (bitmap.tuple i) = false
  mem_list_iff : ∀ i row, i < bitmap.tuples → row < rows →
    (row ∈ bitmap.list i ↔ tupleOf row = bitmap.tuple i)
  zero : ∀ row, row < rows → row ∉ bitmap.lists.flatten → isZeroTuple (tupleOf row) = true
  ordered : bitmap.lists.Pairwise BeginsBefore

/-- The first row of each list. -/
def firsts (bitmap : Bitmap) : List Nat := bitmap.lists.map fun list => list.headD 0

theorem length_firsts (bitmap : Bitmap) : bitmap.firsts.length = bitmap.tuples := by
  rw [firsts, List.length_map, tuples]

theorem getElem_firsts {bitmap : Bitmap} {i : Nat} (inside : i < bitmap.firsts.length) :
    bitmap.firsts[i] = (bitmap.list i).headD 0 := by
  have bound : i < bitmap.lists.length := by rwa [length_firsts] at inside
  simp only [firsts, List.getElem_map, list_eq_getElem bound]

theorem headD_spec {list : List Nat} (filled : list ≠ []) (sorted : list.Pairwise (· < ·)) :
    list.headD 0 ∈ list ∧ ∀ row ∈ list, list.headD 0 ≤ row := by
  cases list with
  | nil => exact absurd rfl filled
  | cons first rest =>
    refine ⟨by simp, fun row member => ?_⟩
    rcases List.mem_cons.mp member with rfl | later
    · exact Nat.le_refl _
    · exact Nat.le_of_lt ((List.pairwise_cons.mp sorted).1 row later)

namespace Canonical

variable {bitmap : Bitmap} {columns rows : Nat} {tupleOf : Nat → List Cell}

theorem congr (canonical : bitmap.Canonical columns rows tupleOf) {other : Nat → List Cell}
    (same : ∀ row, row < rows → tupleOf row = other row) :
    bitmap.Canonical columns rows other where
  wellFormed := canonical.wellFormed
  nonzero := canonical.nonzero
  mem_list_iff i row bound inRow := by
    rw [canonical.mem_list_iff i row bound inRow, same row inRow]
  zero row inRow absent := same row inRow ▸ canonical.zero row inRow absent
  ordered := canonical.ordered

variable (canonical : bitmap.Canonical columns rows tupleOf)

include canonical

theorem first_spec {i : Nat} (bound : i < bitmap.tuples) :
    (bitmap.list i).headD 0 ∈ bitmap.list i ∧
      ∀ row ∈ bitmap.list i, (bitmap.list i).headD 0 ≤ row :=
  headD_spec (canonical.wellFormed.nonempty _ (canonical.wellFormed.list_mem bound))
    (canonical.wellFormed.increasing_list i)

theorem tupleOf_eq {i row : Nat} (member : row ∈ bitmap.list i) : tupleOf row = bitmap.tuple i :=
  (canonical.mem_list_iff i row (lt_tuples_of_mem_list member)
    (canonical.wellFormed.row_lt member)).mp member

theorem tuple_ne {i j : Nat} (boundI : i < bitmap.tuples) (boundJ : j < bitmap.tuples)
    (differs : i ≠ j) : bitmap.tuple i ≠ bitmap.tuple j := by
  intro same
  have first := (canonical.first_spec boundI).1
  have shown := canonical.tupleOf_eq first
  have second := (canonical.mem_list_iff j _ boundJ (canonical.wellFormed.row_lt first)).mpr
    (shown.trans same)
  exact differs (canonical.wellFormed.list_unique first second)

/-- The rows that begin a list are those whose tuple is not zero and was not there before. -/
theorem mem_firsts {row : Nat} : row ∈ bitmap.firsts ↔
    row < rows ∧ isZeroTuple (tupleOf row) = false ∧
      ∀ earlier, earlier < row → tupleOf earlier ≠ tupleOf row := by
  have valid := canonical.wellFormed
  constructor
  · intro member
    obtain ⟨i, inside, rfl⟩ := List.mem_iff_getElem.mp member
    have bound : i < bitmap.tuples := by rwa [length_firsts] at inside
    rw [getElem_firsts inside]
    obtain ⟨first, least⟩ := canonical.first_spec bound
    have inRow := valid.row_lt first
    have shown := canonical.tupleOf_eq first
    refine ⟨inRow, shown ▸ canonical.nonzero i bound, fun earlier before same => ?_⟩
    have listed := (canonical.mem_list_iff i earlier bound (Nat.lt_trans before inRow)).mpr
      (same.trans shown)
    exact absurd (least earlier listed) (Nat.not_le.mpr before)
  · intro ⟨inRow, nonzero, new⟩
    have listed : row ∈ bitmap.lists.flatten := by
      by_contra absent
      rw [canonical.zero row inRow absent] at nonzero
      cases nonzero
    obtain ⟨i, member⟩ := mem_flatten_iff.mp listed
    have bound := lt_tuples_of_mem_list member
    have inside : i < bitmap.firsts.length := by rwa [length_firsts]
    obtain ⟨first, least⟩ := canonical.first_spec bound
    have begins : (bitmap.list i).headD 0 = row := by
      rcases Nat.eq_or_lt_of_le (least row member) with same | before
      · exact same
      · exact absurd ((canonical.tupleOf_eq first).trans (canonical.tupleOf_eq member).symm)
          (new _ before)
    rw [← begins, ← getElem_firsts inside]
    exact List.getElem_mem inside

theorem increasing_firsts : bitmap.firsts.Pairwise (· < ·) := by
  rw [firsts, List.pairwise_map]
  refine canonical.ordered.imp ?_
  rintro a b ⟨x, begins, y, begins', less⟩
  rw [List.headD_eq_head?_getD, List.headD_eq_head?_getD, begins, begins']
  exact less

/-- The first rows give back the tuples and the lists. -/
theorem eq_of_firsts : bitmap =
    ⟨columns, (bitmap.firsts.map tupleOf).flatten.toArray, bitmap.firsts.map fun first =>
      (List.range rows).filter fun row => tupleOf row = tupleOf first⟩ := by
  have valid := canonical.wellFormed
  have tuples : Dictionary.tuplesOf bitmap = bitmap.firsts.map tupleOf := by
    refine List.ext_getElem (by simp [Dictionary.length_tuplesOf, length_firsts]) ?_
    intro i first second
    have bound : i < bitmap.tuples := by rwa [Dictionary.length_tuplesOf] at first
    rw [Dictionary.getElem_tuplesOf, List.getElem_map, getElem_firsts,
      canonical.tupleOf_eq (canonical.first_spec bound).1]
  have lists : bitmap.lists = bitmap.firsts.map fun first =>
      (List.range rows).filter fun row => tupleOf row = tupleOf first := by
    refine List.ext_getElem (by rw [List.length_map, length_firsts, Bitmap.tuples]) ?_
    intro i bound second
    rw [List.getElem_map, getElem_firsts, ← list_eq_getElem bound]
    refine Increasing.eq_of_mem_iff (valid.increasing_list i)
      (List.pairwise_lt_range.filter _) fun row => ?_
    rw [List.mem_filter, List.mem_range, decide_eq_true_eq,
      canonical.tupleOf_eq (canonical.first_spec bound).1]
    constructor
    · exact fun member => ⟨valid.row_lt member, canonical.tupleOf_eq member⟩
    · rintro ⟨inRow, same⟩
      exact (canonical.mem_list_iff i row bound inRow).mpr same
  have values : bitmap.values = (bitmap.firsts.map tupleOf).flatten.toArray :=
    tuples ▸ (Dictionary.holds_ofBitmap valid).values
  rw [← lists, ← values, ← valid.width]

theorem unique {other : Bitmap} (canonical' : other.Canonical columns rows tupleOf) :
    bitmap = other := by
  have same : bitmap.firsts = other.firsts :=
    Increasing.eq_of_mem_iff canonical.increasing_firsts canonical'.increasing_firsts
      fun row => canonical.mem_firsts.trans canonical'.mem_firsts.symm
  rw [canonical.eq_of_firsts, canonical'.eq_of_firsts, same]

end Canonical

/-- Rows that were grouped without those of zeros make the bitmap of their grouping. -/
theorem canonical_ofTupleRows {width rows : Nat} {items : List TupleRow}
    {tupleOf : Nat → List Cell} (increasing : (items.map TupleRow.row).Pairwise (· < ·))
    (widths : ∀ item ∈ items, item.tuple.length = width)
    (shown : ∀ item, item ∈ items ↔ item.row < rows ∧ item.tuple = tupleOf item.row ∧
      isZeroTuple item.tuple = false) :
    (ofTupleRows width items).Canonical width rows tupleOf := by
  have valid := wellFormed_ofTupleRows increasing (fun item member => ((shown item).mp member).1)
    widths
  have listed : ∀ i row, i < (ofTupleRows width items).tuples →
      (row ∈ (ofTupleRows width items).list i ↔ row < rows ∧
        (ofTupleRows width items).tuple i = tupleOf row ∧
        isZeroTuple ((ofTupleRows width items).tuple i) = false) := by
    intro i row bound
    rw [mem_list_ofTupleRows_iff widths bound, shown]
  have nonzero : ∀ i, i < (ofTupleRows width items).tuples →
      isZeroTuple ((ofTupleRows width items).tuple i) = false := by
    intro i bound
    obtain ⟨row, member⟩ := List.exists_mem_of_ne_nil _ (valid.nonempty _ (valid.list_mem bound))
    exact ((listed i row bound).mp member).2.2
  refine ⟨valid, nonzero, ?_, ?_, beginsBefore_ofTupleRows width increasing⟩
  · intro i row bound inRow
    rw [listed i row bound]
    exact ⟨fun here => here.2.1.symm, fun same => ⟨inRow, same.symm, nonzero i bound⟩⟩
  · intro row inRow absent
    by_contra other
    refine absent ((mem_lists_ofTupleRows width).mpr
      (List.mem_map.mpr ⟨⟨row, tupleOf row⟩, ?_, rfl⟩))
    exact (shown _).mpr ⟨inRow, rfl, by simpa using other⟩

section Source

variable {source : Source} {columns : List Nat}

/-- Grouping the rows that a source shows gives the bitmap of their tuples. -/
theorem canonical_shownFrom (source : Source) (columns : List Nat) :
    (ofTupleRows columns.length (source.shownFrom columns 0)).Canonical columns.length source.rows
      (source.tuple columns) := by
  refine canonical_ofTupleRows (Source.increasing_shownFrom source columns) ?_
    fun item => Source.mem_shownFrom
  intro item member
  rw [(Source.mem_shownFrom.mp member).2.1, Source.length_tuple]

theorem get?_eq {row col : Nat} (inRow : row < source.rows) (inCol : col < source.cols) :
    source.get? row col = some (source.cell row col) := by
  cases turned : source.transposed <;>
    simp_all [Source.get?, Source.cell, Block.get?, Source.rows, Source.cols]

theorem map_get? (inside : ∀ col ∈ columns, col < source.cols) {row : Nat}
    (inRow : row < source.rows) :
    columns.map (source.get? row) = (source.tuple columns row).map some := by
  rw [Source.tuple, List.map_map]
  exact List.map_congr_left fun col member => get?_eq inRow (inside col member)

/-- The bitmap of increasing columns groups the rows by their tuples: rows with the same cells share
a list, and rows of zeros are in none. The lists begin in increasing order, so this is the only such
bitmap: it depends on the cells only, and however the columns are scanned the same one is found. -/
theorem extract_groups_rows (valid : source.block.validate = .ok ())
    (short : source.block.rows ≤ maxIndex) (narrow : source.block.cols ≤ maxIndex)
    (sorted : columns.Pairwise (· < ·)) (inside : ∀ col ∈ columns, col < source.cols) :
    ∃ bitmap, extract columns source = .ok bitmap ∧
      bitmap.validate columns source.rows = .ok () ∧
      (∀ i, i < bitmap.tuples → isZeroTuple (bitmap.tuple i) = false) ∧
      (∀ i j, i < bitmap.tuples → j < bitmap.tuples → i ≠ j → bitmap.tuple i ≠ bitmap.tuple j) ∧
      (∀ i row, i < bitmap.tuples → row < source.rows →
        (row ∈ bitmap.list i ↔ columns.map (source.get? row) = (bitmap.tuple i).map some)) ∧
      (∀ row, row < source.rows → row ∉ bitmap.lists.flatten →
        ∀ col ∈ columns, source.get? row col = some Cell.zero) ∧
      bitmap.lists.Pairwise BeginsBefore ∧
      (∀ other : Source, other.block.validate = .ok () → other.block.rows ≤ maxIndex →
        other.block.cols ≤ maxIndex → other.rows = source.rows →
        (∀ col ∈ columns, col < other.cols) →
        (∀ row, row < source.rows → ∀ col ∈ columns, other.get? row col = source.get? row col) →
        extract columns other = .ok bitmap) ∧
      ofTupleRows columns.length (source.tupleRows columns) = bitmap ∧
      ∀ column, columns = [column] →
        ofTupleRows 1 ((source.column column).map fun entry => ⟨entry.1, [entry.2]⟩) = bitmap := by
  have whole : source.WellFormed := ⟨Block.wellFormed_of_validate valid, short, narrow⟩
  have canonical := canonical_shownFrom source columns
  have scanned := tupleRows_eq whole sorted inside
  refine ⟨ofTupleRows columns.length (source.shownFrom columns 0), ?_,
    canonical.wellFormed.validate, canonical.nonzero, fun i j => canonical.tuple_ne, ?_, ?_,
    canonical.ordered, ?_, ?_, ?_⟩
  · rw [extract_of_inside whole sorted inside, scanned]
  · intro i row bound inRow
    rw [canonical.mem_list_iff i row bound inRow, map_get? inside inRow,
      List.map_inj_right fun _ _ => Option.some.inj]
  · intro row inRow absent col member
    have zero := canonical.zero row inRow absent
    rw [isZeroTuple, Source.tuple, List.all_map, List.all_eq_true] at zero
    rw [get?_eq inRow (inside col member), Cell.isZero_iff.mp (zero col member)]
  · intro other valid' short' narrow' height inside' same
    have whole' : other.WellFormed := ⟨Block.wellFormed_of_validate valid', short', narrow'⟩
    rw [extract_of_inside whole' sorted inside', tupleRows_eq whole' sorted inside']
    refine congrArg Except.ok (Canonical.unique ?_ canonical)
    refine height ▸ (canonical_shownFrom other columns).congr fun row inRow => ?_
    refine List.map_congr_left fun col member => Option.some.inj ?_
    rw [height] at inRow
    rw [← get?_eq (height ▸ inRow) (inside' col member), same row inRow col member,
      get?_eq inRow (inside col member)]
  · rw [Source.tupleRows_eq whole sorted inside]
  · rintro column rfl
    rw [← scanned]
    rfl

/-- Two columns, stored by columns: row 1 has a stored zero, and row 2 a negative zero. -/
def storedZero : Source where
  block := ⟨2, 4, .sparse ⟨#[0, 4, 5], #[0, 1, 2, 3, 2],
    #[⟨0x3ff0000000000000⟩, ⟨0⟩, ⟨0x8000000000000000⟩, ⟨0x3ff0000000000000⟩,
      ⟨0x4000000000000000⟩]⟩⟩
  transposed := true

/-- The same columns as rows of cells. -/
def storedZeroCells : Source where
  block := ⟨4, 2, .dense #[⟨0x3ff0000000000000⟩, ⟨0⟩, ⟨0⟩, ⟨0⟩, ⟨0x8000000000000000⟩,
    ⟨0x4000000000000000⟩, ⟨0x3ff0000000000000⟩, ⟨0⟩]⟩
  transposed := false

/-- Row 1 is left out, and the tuple with the negative zero is not that with the positive one. -/
def storedZeroBitmap : Bitmap where
  width := 2
  values := #[⟨0x3ff0000000000000⟩, ⟨0⟩, ⟨0x8000000000000000⟩, ⟨0x4000000000000000⟩]
  lists := [[0, 3], [2]]

theorem extract_groups_rows_storedZero :
    extract [0, 1] storedZero = .ok storedZeroBitmap ∧
      extract [0, 1] storedZeroCells = .ok storedZeroBitmap ∧
      [0, 1].map (storedZero.get? 3) = (storedZeroBitmap.tuple 0).map some ∧
      storedZero.get? 1 0 = some Cell.zero := by
  obtain ⟨bitmap, found, _, _, _, listed, zero, _, layouts, generic, _⟩ :=
    @extract_groups_rows storedZero [0, 1] (by decide +kernel) (by decide) (by decide) (by decide)
      (by decide)
  have scanned : storedZero.tupleRows [0, 1] = [⟨0, [⟨0x3ff0000000000000⟩, ⟨0⟩]⟩,
      ⟨2, [⟨0x8000000000000000⟩, ⟨0x4000000000000000⟩]⟩, ⟨3, [⟨0x3ff0000000000000⟩, ⟨0⟩]⟩] := by
    decide +kernel
  have grouped : bitmap = storedZeroBitmap := by
    rw [← generic, scanned]
    simp [ofTupleRows, Grouping.add, Grouping.start, storedZeroBitmap, Std.HashMap.getElem_insert]
  subst grouped
  have same : ∀ row, row < 4 → ∀ col ∈ [0, 1],
      storedZeroCells.get? row col = storedZero.get? row col := by
    decide +kernel
  refine ⟨found, layouts storedZeroCells (by decide) (by decide) (by decide) rfl (by decide) same,
    (listed 0 3 (by decide) (by decide)).mp (by decide),
    zero 1 (by decide) (by decide) 0 (by decide)⟩

end Source

end Bitmap

end PackedMatrix
