import PackedMatrix.Proofs.RecordedEstimates

namespace PackedMatrix

namespace Source

/-- Two sources show the same matrix. -/
structure Alike (a b : Source) : Prop where
  valid : a.WellFormed
  valid' : b.WellFormed
  rows : a.rows = b.rows
  cols : a.cols = b.cols
  cells : ∀ row col, row < a.rows → col < a.cols → a.cell row col = b.cell row col

theorem alike_oriented {block : Block} (valid : block.WellFormed) (short : block.rows ≤ maxIndex)
    (narrow : block.cols ≤ maxIndex) (first second : Bool) :
    Alike (oriented block first) (oriented block second) where
  valid := wellFormed_oriented valid short narrow first
  valid' := wellFormed_oriented valid short narrow second
  rows := by rw [rows_oriented, rows_oriented]
  cols := by rw [cols_oriented, cols_oriented]
  cells row col inRow inCol := by
    rw [rows_oriented] at inRow
    rw [cols_oriented] at inCol
    rw [cell_oriented valid short narrow first inRow inCol,
      cell_oriented valid short narrow second inRow inCol]

namespace Alike

variable {a b c : Source} {columns : List Nat}

theorem symm (alike : Alike a b) : Alike b a where
  valid := alike.valid'
  valid' := alike.valid
  rows := alike.rows.symm
  cols := alike.cols.symm
  cells row col inRow inCol := (alike.cells row col (alike.rows ▸ inRow) (alike.cols ▸ inCol)).symm

theorem trans (first : Alike a b) (second : Alike b c) : Alike a c where
  valid := first.valid
  valid' := second.valid'
  rows := first.rows.trans second.rows
  cols := first.cols.trans second.cols
  cells row col inRow inCol := (first.cells row col inRow inCol).trans
    (second.cells row col (first.rows ▸ inRow) (first.cols ▸ inCol))

theorem tuple_eq (alike : Alike a b) (inside : ∀ col ∈ columns, col < a.cols) {row : Nat}
    (inRow : row < a.rows) : a.tuple columns row = b.tuple columns row :=
  List.map_congr_left fun col member => alike.cells row col inRow (inside col member)

theorem shownFrom_eq (alike : Alike a b) (inside : ∀ col ∈ columns, col < a.cols) :
    a.shownFrom columns 0 = b.shownFrom columns 0 := by
  rw [shownFrom, shownFrom, ← alike.rows]
  exact TupleRow.nonzeroFrom_congr fun row inRow => alike.tuple_eq inside inRow

theorem copy_eq (alike : Alike a b) (inside : ∀ col ∈ columns, col < a.cols) :
    a.copy columns = b.copy columns := by
  have tuples : (List.range a.rows).flatMap (a.tuple columns) =
      (List.range a.rows).flatMap (b.tuple columns) := by
    refine List.flatMap_congr fun row member => ?_
    exact alike.tuple_eq inside (List.mem_range.mp member)
  rw [copy, copy, tuples, alike.rows]

theorem extract_eq (alike : Alike a b) (columns : List Nat) :
    Bitmap.extract columns a = Bitmap.extract columns b := by
  unfold Bitmap.extract
  rw [← alike.cols, ← alike.rows]
  split
  next => rfl
  next sorted =>
    split
    next => rfl
    next found =>
      have inside : ∀ col ∈ columns, col < a.cols := by
        simpa using List.find?_eq_none.mp found
      have sorted := not_not.mp sorted
      rw [Bitmap.tupleRows_eq alike.valid sorted inside,
        Bitmap.tupleRows_eq alike.valid' sorted (alike.cols ▸ inside), alike.shownFrom_eq inside]

theorem selectColumns_eq (alike : Alike a b) (inside : ∀ col ∈ columns, col < a.cols) :
    a.block.selectColumns columns a.transposed = b.block.selectColumns columns b.transposed := by
  rw [Block.selectColumns_eq alike.valid inside,
    Block.selectColumns_eq alike.valid' (alike.cols ▸ inside), alike.copy_eq inside, alike.rows]

end Alike

end Source

namespace Group

variable {a b : Source} {settings : Settings} {columns : List Nat} {encoding : Encoding}

theorem encodeAs_congr (alike : Source.Alike a b) (inside : ∀ col ∈ columns, col < a.cols)
    (rows : Nat) (bitmap : Bitmap) :
    encodeAs encoding columns rows bitmap settings a =
      encodeAs encoding columns rows bitmap settings b := by
  cases encoding with
  | uncompressed => rw [encodeAs, encodeAs, alike.rows, alike.selectColumns_eq inside]
  | _ => rfl

theorem ofColumns_congr (alike : Source.Alike a b) (columns : List Nat) (encoding : Encoding)
    (settings : Settings) :
    ofColumns a columns encoding settings = ofColumns b columns encoding settings := by
  rw [ofColumns, ofColumns, ← alike.extract_eq, ← alike.rows]
  cases extracted : Bitmap.extract columns a with
  | error error => rfl
  | ok bitmap =>
    have inside := (Bitmap.inside_of_extract extracted).2
    simp only [mapError_ok, bind, Except.bind, ofBitmap, encode, encodeAs_congr alike inside]

theorem ofPlan_congr_of_whole (alike : Source.Alike a b) {plan : ColumnPlan}
    (whole : ¬ Splits a plan) (whole' : ¬ Splits b plan) :
    ofPlan a settings plan = ofPlan b settings plan := by
  rw [ofPlan_of_not_splits whole, ofPlan_of_not_splits whole', ofColumns_congr alike]

theorem not_splits_of_single (source : Source) {plan : ColumnPlan}
    (single : plan.columns.length = 1) : ¬ Splits source plan := by
  intro splits
  have several := splits.several
  omega

/-- A plan of one column is not split, from whichever side it is read. -/
theorem ofPlan_congr (alike : Source.Alike a b) {plan : ColumnPlan}
    (single : plan.columns.length = 1) : ofPlan a settings plan = ofPlan b settings plan :=
  ofPlan_congr_of_whole alike (not_splits_of_single a single) (not_splits_of_single b single)

theorem ofPlans_cons (source : Source) (settings : Settings) (plan : ColumnPlan)
    (rest : List ColumnPlan) : ofPlans source settings (plan :: rest) = (do
      let first ← ofPlan source settings plan
      let others ← ofPlans source settings rest
      pure (first ++ others)) := by
  rw [ofPlans, ofPlans, Pool.collect_caller, Pool.collect_caller, List.mapM_cons]
  cases ofPlan source settings plan with
  | error error => rfl
  | ok first =>
    cases rest.mapM (ofPlan source settings) with
    | error error => rfl
    | ok others => rfl

theorem ofPlans_congr (alike : Source.Alike a b) {plans : List ColumnPlan}
    (singles : ∀ plan ∈ plans, plan.columns.length = 1) :
    ofPlans a settings plans = ofPlans b settings plans := by
  rw [ofPlans, ofPlans, Pool.collect_caller, Pool.collect_caller,
    mapM_congr fun plan member => ofPlan_congr alike (singles plan member)]

end Group

theorem ColumnCosts.ofColumns_congr {a b : Source} (alike : Source.Alike a b) (settings : Settings)
    (columns : List Nat) : ofColumns a settings columns = ofColumns b settings columns := by
  rw [ofColumns, ofColumns, alike.extract_eq, alike.rows]

namespace Compressor

end Compressor

namespace Attempt

end Attempt

namespace Compressor

variable {block : Block} {settings : Settings} {plans : List ColumnPlan} {a b : Statistics}

theorem single_of_group {source : Source} {costs : List ColumnCosts} {cols : Nat}
    (sourced : ColumnCosts.ofSource source settings = .ok costs)
    (grouped : group costs cols settings .cheapest = .ok plans) :
    ∀ plan ∈ plans, plan.columns.length = 1 := by
  obtain ⟨given, fixed, checked⟩ := bind_eq_ok grouped
  cases fixed
  obtain ⟨rfl, _⟩ := ColumnPlan.checkFrom_eq_ok (mapError_eq_ok checked)
  intro plan member
  obtain ⟨first, listed, rfl⟩ := List.mem_map.mp member
  obtain ⟨cost, kept, rfl⟩ := List.mem_map.mp listed
  obtain ⟨col, _, found⟩ := exists_of_mem_mapM sourced (List.mem_filter.mp kept).1
  obtain ⟨bitmap, _, made⟩ := bind_eq_ok found
  cases made
  exact List.length_mergeSort _

end Compressor

end PackedMatrix
