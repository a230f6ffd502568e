import PackedMatrix.Proofs.Orientation

namespace PackedMatrix

namespace Block

variable {block : Block} {cells : Array Cell}

/-- Every row holds a zero in the column. -/
def isColumnZero (block : Block) (col : Nat) : Bool :=
  (List.range block.rows).all fun row => (block.cell row col).isZero

theorem isColumnZero_iff {col : Nat} : block.isColumnZero col = true ↔
    ∀ row, row < block.rows → block.cell row col = Cell.zero := by
  simp [isColumnZero, Cell.isZero_iff]

theorem isSparse_transpose_toSparse (data : block.data = .dense cells) :
    block.toSparse.transpose.isSparse = true := by
  simp [toSparse, data, transpose, isSparse]

section Sparse

variable (data : block.data = .dense cells) (valid : block.WellFormed) (wide : 0 < block.cols)
  (narrow : block.cols ≤ maxIndex)

include data valid wide narrow

theorem wellFormed_toSparse : block.toSparse.WellFormed := by
  rw [toSparse_eq block data ((wellFormed_dense data).mp valid) wide, wellFormed_sparse rfl]
  exact wellFormed_ofEntries_rowLines block narrow

/-- The sparse copy of a dense block shows the same matrix. -/
theorem alike_toSparse (short : block.rows ≤ maxIndex) :
    Source.Alike ⟨block, false⟩ ⟨block.toSparse, false⟩ := by
  have fit := wellFormed_toSparse data valid wide narrow
  have made := toSparse_eq block data ((wellFormed_dense data).mp valid) wide
  rw [made] at fit ⊢
  refine ⟨⟨valid, short, narrow⟩, ⟨fit, short, narrow⟩, rfl, rfl, ?_⟩
  intro row col inRow inCol
  exact (cell_ofEntries_rowLines narrow inRow inCol).symm

/-- So does the copy when it is transposed and read as such. -/
theorem alike_transpose_toSparse (short : block.rows ≤ maxIndex) :
    Source.Alike ⟨block, false⟩ ⟨block.toSparse.transpose, true⟩ := by
  have upright := alike_toSparse data valid wide narrow short
  exact upright.trans (Source.alike_oriented upright.valid'.block upright.valid'.short
    upright.valid'.narrow false true)

/-- The transposed sparse copy stores nothing of exactly the columns of zeros. -/
theorem isColumnEmpty_transpose_toSparse (short : block.rows ≤ maxIndex) {col : Nat}
    (inside : col < block.cols) :
    Source.isColumnEmpty ⟨block.toSparse.transpose, true⟩ col = block.isColumnZero col := by
  have stored := wellFormed_ofEntries_rowLines block narrow
  have swapped := SparseRows.wellFormed_swapSparse stored short
  have entries := SparseRows.entries_swapSparse stored short inside
  have shown : Source.isColumnEmpty ⟨block.toSparse.transpose, true⟩ col =
      ((swapSparse block.rows block.cols (.ofEntries block.rowLines)).rowColumns col).isEmpty := by
    rw [toSparse_eq block data ((wellFormed_dense data).mp valid) wide]
    rfl
  rw [shown, ← swapped.map_fst_entries inside, entries, Bool.eq_iff_iff, List.isEmpty_iff,
    List.map_eq_nil_iff, List.eq_nil_iff_forall_not_mem, isColumnZero_iff]
  constructor
  · intro none_ row inRow
    by_contra some_
    refine none_ (row, block.cell row col) (SparseRows.mem_columnEntries.mpr ⟨inRow, ?_⟩)
    rw [entries_ofEntries_rowLines narrow inRow, Line.mem_iff]
    refine ⟨inside, rfl, ?_⟩
    rw [← Bool.not_eq_true, Cell.isZero_iff]
    exact some_
  · rintro zero ⟨row, value⟩ member
    obtain ⟨inRow, listed⟩ := SparseRows.mem_columnEntries.mp member
    rw [entries_ofEntries_rowLines narrow inRow] at listed
    obtain ⟨_, same, nonzero⟩ := Line.mem_iff.mp listed
    rw [same, zero row inRow] at nonzero
    cases nonzero

end Sparse

end Block

/-- If several columns are planned and some of them are zero, the same columns as two plans: one for
those that are zero, in whatever encoding, and one for the others, if there are any. -/
def ColumnPlan.splitZeros (block : Block) (blank : Encoding) (plan : ColumnPlan) :
    List ColumnPlan :=
  let zeros := plan.columns.filter block.isColumnZero
  let others := plan.columns.filter (!block.isColumnZero ·)
  if plan.columns.length > 1 ∧ zeros ≠ [] then
    ⟨zeros, blank⟩ :: if others = [] then [] else [⟨others, plan.encoding⟩]
  else [plan]

namespace Group

variable {source a b : Source} {settings : Settings} {plan : ColumnPlan} {plans : List ColumnPlan}

theorem ofPlans_append (source : Source) (settings : Settings) (front back : List ColumnPlan) :
    ofPlans source settings (front ++ back) = (do
      let first ← ofPlans source settings front
      let others ← ofPlans source settings back
      pure (first ++ others)) := by
  induction front with
  | nil =>
    rw [List.nil_append]
    cases ofPlans source settings back with
    | error error => rfl
    | ok groups => rfl
  | cons plan rest ih =>
    rw [List.cons_append, ofPlans_cons, ofPlans_cons, ih]
    cases ofPlan source settings plan with
    | error error => rfl
    | ok first =>
      cases ofPlans source settings rest with
      | error error => rfl
      | ok middle =>
        cases ofPlans source settings back with
        | error error => rfl
        | ok last => exact congrArg Except.ok (List.append_assoc ..).symm

/-- What is built plan by plan from other plans is built from all of these. -/
theorem ofPlans_flatMap {split : ColumnPlan → List ColumnPlan}
    (each : ∀ plan ∈ plans, ofPlan a settings plan = ofPlans b settings (split plan)) :
    ofPlans a settings plans = ofPlans b settings (plans.flatMap split) := by
  induction plans with
  | nil => rfl
  | cons plan rest ih =>
    obtain ⟨first, others⟩ := List.forall_mem_cons.mp each
    rw [List.flatMap_cons, ofPlans_cons, ofPlans_append, first, ih others]

theorem ofPlans_singleton (source : Source) (settings : Settings) (plan : ColumnPlan) :
    ofPlans source settings [plan] = ofPlan source settings plan := by
  rw [ofPlans_cons]
  cases ofPlan source settings plan with
  | error error => rfl
  | ok groups => exact congrArg Except.ok (List.append_nil groups)

theorem not_splits_of_upright (upright : source.transposed = false) : ¬ Splits source plan := by
  intro splits
  rw [splits.transposed] at upright
  cases upright

theorem ofPlans_congr_of_whole (alike : Source.Alike a b) (whole : ∀ plan, ¬ Splits a plan)
    (whole' : ∀ plan, ¬ Splits b plan) : ofPlans a settings plans = ofPlans b settings plans := by
  rw [ofPlans, ofPlans, Pool.collect_caller, Pool.collect_caller, mapM_congr fun plan _ =>
    ofPlan_congr_of_whole alike (whole plan) (whole' plan)]

theorem ofColumns_zeros (valid : source.WellFormed) {columns : List Nat}
    (sorted : columns.Pairwise (· < ·)) (inside : ∀ col ∈ columns, col < source.cols)
    (zero : ∀ col ∈ columns, ∀ row, row < source.rows → source.cell row col = Cell.zero)
    (encoding : Encoding) (settings : Settings) :
    ofColumns source columns encoding settings = .ok ⟨columns, source.rows, .empty⟩ := by
  have none_ : Bitmap.tupleRows columns source = [] := by
    rw [Bitmap.tupleRows_eq valid sorted inside]
    refine TupleRow.nonzeroFrom_eq_nil fun row inRow => ?_
    simp only [isZeroTuple, Source.tuple, List.all_map, List.all_eq_true]
    intro col listed
    exact Cell.isZero_iff.mpr (zero col listed row inRow)
  have extracted := Bitmap.extract_of_inside valid sorted inside
  obtain ⟨_, _, fit, _⟩ := Bitmap.extract_eq_ok valid extracted
  rw [ofColumns, extracted]
  rw [none_] at fit ⊢
  have checked : (Bitmap.ofTupleRows columns.length []).validate columns source.rows = .ok () :=
    fit.validate
  simp only [mapError_ok, bind, Except.bind, ofBitmap, checked]
  rfl

section Layouts

variable {block : Block} {cells : Array Cell} (data : block.data = .dense cells)
  (valid : block.WellFormed) (short : block.rows ≤ maxIndex) (narrow : block.cols ≤ maxIndex)
  (wide : 0 < block.cols) (sorted : plan.columns.Pairwise (· < ·))
  (inside : ∀ col ∈ plan.columns, col < block.cols)

include data valid short narrow wide inside

/-- The transposed sparse copy splits a plan exactly if it is split beforehand. -/
theorem splits_transpose_toSparse_iff : Splits ⟨block.toSparse.transpose, true⟩ plan ↔
    plan.columns.length > 1 ∧ plan.columns.filter block.isColumnZero ≠ [] := by
  have sparse := Block.isSparse_transpose_toSparse data
  have zeros : plan.columns.filter (Source.isColumnEmpty ⟨block.toSparse.transpose, true⟩) =
      plan.columns.filter block.isColumnZero := List.filter_congr fun col member =>
    Block.isColumnEmpty_transpose_toSparse data valid wide narrow short (inside col member)
  rw [← zeros]
  exact ⟨fun splits => ⟨splits.several, splits.empty⟩, fun both => ⟨rfl, sparse, both.1, both.2⟩⟩

include sorted

/-- Read from the transposed sparse copy, a plan is built as if it had been split beforehand. -/
theorem ofPlan_transpose_toSparse (blank : Encoding) (settings : Settings) :
    ofPlan ⟨block.toSparse.transpose, true⟩ settings plan =
      ofPlans ⟨block, false⟩ settings (plan.splitZeros block blank) := by
  have alike := Block.alike_transpose_toSparse data valid wide narrow short
  have splits_iff := splits_transpose_toSparse_iff data valid short narrow wide inside
  by_cases splits : Splits ⟨block.toSparse.transpose, true⟩ plan
  · have empty := fun col member =>
      Block.isColumnEmpty_transpose_toSparse data valid wide narrow short (inside col member)
    have zeros : plan.columns.filter (Source.isColumnEmpty ⟨block.toSparse.transpose, true⟩) =
        plan.columns.filter block.isColumnZero := List.filter_congr empty
    have others : plan.columns.filter
        (!Source.isColumnEmpty ⟨block.toSparse.transpose, true⟩ ·) =
          plan.columns.filter (!block.isColumnZero ·) := List.filter_congr fun col member => by
      rw [empty col member]
    have rows : Source.rows ⟨block.toSparse.transpose, true⟩ = block.rows := alike.rows.symm
    have blanks : ofColumns ⟨block, false⟩ (plan.columns.filter block.isColumnZero) blank settings =
        .ok ⟨plan.columns.filter block.isColumnZero, block.rows, .empty⟩ :=
      ofColumns_zeros alike.valid (sorted.filter _)
        (fun col member => inside col (List.mem_filter.mp member).1)
        (fun col member => Block.isColumnZero_iff.mp (List.mem_filter.mp member).2) blank settings
    rw [ofPlan_of_splits splits, splitEmpty, zeros, others, rows, ColumnPlan.splitZeros,
      if_pos (splits_iff.mp splits), ofPlans_cons,
      ofPlan_of_not_splits (not_splits_of_upright rfl), blanks]
    by_cases none_ : plan.columns.filter (!block.isColumnZero ·) = []
    · rw [if_pos none_, if_pos (List.isEmpty_iff.mpr none_)]
      rfl
    · rw [if_neg none_, if_neg fun empty => none_ (List.isEmpty_iff.mp empty), ofPlans_singleton,
        ofPlan_of_not_splits (not_splits_of_upright rfl), ofColumns_congr alike]
      cases ofColumns ⟨block.toSparse.transpose, true⟩
          (plan.columns.filter (!block.isColumnZero ·)) plan.encoding settings with
      | error error => rfl
      | ok group => rfl
  · rw [ColumnPlan.splitZeros, if_neg fun both => splits (splits_iff.mpr both), ofPlans_singleton]
    exact ofPlan_congr_of_whole alike.symm splits (not_splits_of_upright rfl)

end Layouts

variable {block : Block} {cells : Array Cell}

/-- A dense block, its sparse copy and its transpose give the same groups for the same plans, or the
same failure. The transpose of the sparse copy gives what the block gives for plans from which
columns of zeros have been split off. -/
theorem ofPlans_layouts (data : block.data = .dense cells) (valid : block.validate = .ok ())
    (short : block.rows ≤ maxIndex) (narrow : block.cols ≤ maxIndex)
    (planned : ∀ plan ∈ plans, plan.columns ≠ [] ∧ plan.columns.Pairwise (· < ·) ∧
      ∀ col ∈ plan.columns, col < block.cols) (settings : Settings) (blank : Encoding) :
    ofPlans ⟨block.toSparse, false⟩ settings plans = ofPlans ⟨block, false⟩ settings plans ∧
      ofPlans ⟨block.transpose, true⟩ settings plans = ofPlans ⟨block, false⟩ settings plans ∧
      ofPlans ⟨block.toSparse.transpose, true⟩ settings plans =
        ofPlans ⟨block, false⟩ settings (plans.flatMap (ColumnPlan.splitZeros block blank)) := by
  have fit := Block.wellFormed_of_validate valid
  have wide : ∀ plan ∈ plans, 0 < block.cols := by
    intro plan member
    obtain ⟨nonempty, _, inside⟩ := planned plan member
    obtain ⟨col, listed⟩ := List.exists_mem_of_ne_nil _ nonempty
    exact Nat.zero_lt_of_lt (inside col listed)
  refine ⟨?_, ?_, ofPlans_flatMap fun plan member => ?_⟩
  · by_cases none_ : plans = []
    · rw [none_]
      rfl
    · obtain ⟨plan, member⟩ := List.exists_mem_of_ne_nil _ none_
      have wide := wide plan member
      exact ofPlans_congr_of_whole (Block.alike_toSparse data fit wide narrow short).symm
        (fun _ => not_splits_of_upright rfl) fun _ => not_splits_of_upright rfl
  · have dense : block.transpose.isSparse = false := by
      simp [Block.transpose, data, Block.isSparse]
    refine ofPlans_congr_of_whole (Source.alike_oriented fit short narrow true false) ?_
      fun _ => not_splits_of_upright rfl
    intro plan splits
    cases dense.symm.trans splits.sparse
  · obtain ⟨_, sorted, inside⟩ := planned plan member
    exact ofPlan_transpose_toSparse data fit short narrow (wide plan member) sorted inside blank
      settings

/-- Two rows with a number in the first column and a zero in the second. -/
def zeroColumn : Block := ⟨2, 2, .dense #[⟨1⟩, ⟨0⟩, ⟨2⟩, ⟨0⟩]⟩

/-- Both columns are planned together, and come apart in the transposed sparse copy. -/
theorem ofPlans_layouts_zeroColumn :
    ColumnPlan.splitZeros zeroColumn .ole ⟨[0, 1], .ddc⟩ = [⟨[1], .ole⟩, ⟨[0], .ddc⟩] ∧
      ofPlans ⟨zeroColumn.toSparse, false⟩ {} [⟨[0, 1], .ddc⟩] =
        ofPlans ⟨zeroColumn, false⟩ {} [⟨[0, 1], .ddc⟩] ∧
      ofPlans ⟨zeroColumn.transpose, true⟩ {} [⟨[0, 1], .ddc⟩] =
        ofPlans ⟨zeroColumn, false⟩ {} [⟨[0, 1], .ddc⟩] ∧
      ofPlans ⟨zeroColumn.toSparse.transpose, true⟩ {} [⟨[0, 1], .ddc⟩] =
        ofPlans ⟨zeroColumn, false⟩ {} [⟨[1], .ole⟩, ⟨[0], .ddc⟩] := by
  have split : ColumnPlan.splitZeros zeroColumn .ole ⟨[0, 1], .ddc⟩ =
      [⟨[1], .ole⟩, ⟨[0], .ddc⟩] := by decide +kernel
  have valid : zeroColumn.validate = .ok () := by decide +kernel
  have planned : ∀ plan ∈ [(⟨[0, 1], .ddc⟩ : ColumnPlan)], plan.columns ≠ [] ∧
      plan.columns.Pairwise (· < ·) ∧ ∀ col ∈ plan.columns, col < zeroColumn.cols := by decide
  obtain ⟨sparse, turned, apart⟩ :=
    ofPlans_layouts rfl valid (by decide) (by decide) planned {} .ole
  rw [List.flatMap_singleton, split] at apart
  exact ⟨split, sparse, turned, apart⟩

end Group

end PackedMatrix
