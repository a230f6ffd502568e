import PackedMatrix.Proofs.PointerRange

namespace PackedMatrix

namespace Group

variable {source : Source} {settings : Settings} {plans : List ColumnPlan}

theorem ofPlans_of_singles (singles : ∀ plan ∈ plans, plan.columns.length = 1) :
    ofPlans source settings plans =
      plans.mapM fun plan => ofColumns source plan.columns plan.encoding settings := by
  induction plans with
  | nil => rfl
  | cons plan rest ih =>
    obtain ⟨single, others⟩ := List.forall_mem_cons.mp singles
    rw [ofPlans_cons, ofPlan_of_not_splits (not_splits_of_single source single), ih others,
      List.mapM_cons]
    cases ofColumns source plan.columns plan.encoding settings with
    | error error => rfl
    | ok group => rfl

/-- A joint copy takes no more than copies one by one; for one column it is the same. -/
theorem size_joint_copy (rows columns nonZeros : Nat) (some_ : 0 < columns) :
    baseSize columns + Block.estimateSize rows columns nonZeros ≤ (68 + 8 * rows) * columns ∧
      (columns = 1 → baseSize columns + Block.estimateSize rows columns nonZeros =
        (68 + 8 * rows) * columns) := by
  have separate : (68 + 8 * rows) * columns = 68 * columns + rows * columns * 8 := by
    rw [Nat.add_mul, Nat.mul_assoc, Nat.mul_comm 8]
  simp only [baseSize, Block.estimateSize, Block.headerSize, separate]
  refine ⟨by omega, ?_⟩
  rintro rfl
  omega

end Group

namespace ColumnCosts

variable {source : Source} {settings : Settings} {col : Nat} {encoding : Encoding} {group : Group}

/-- The columns that take no less space encoded than copied. -/
def copied (source : Source) (settings : Settings) : List Nat :=
  (List.range source.cols).filter fun col => !(ofColumn source settings col).isCompressible

theorem best_le_size (valid : source.WellFormed) (enabled : settings.allows encoding = true)
    (h : Group.ofColumns source [col] encoding settings = .ok group) :
    (ofColumn source settings col).best.size ≤ group.size :=
  best_le enabled (Group.size_ofColumns valid (List.cons_ne_nil _ _) h)

theorem size_best (valid : source.WellFormed)
    (compressible : (ofColumn source settings col).isCompressible = true)
    (h : Group.ofColumns source [col] (ofColumn source settings col).best.encoding settings =
      .ok group) :
    group.size = (ofColumn source settings col).best.size := by
  have taken := Group.size_ofColumns valid (List.cons_ne_nil _ _) h
  exact Option.some.inj (taken.symm.trans (best_of_isCompressible compressible).2)

/-- The best sizes of the columns that are encoded, and a copy for each of the others. -/
theorem estimatedSize_eq (source : Source) (settings : Settings) :
    estimatedSize ((List.range source.cols).map (ofColumn source settings)) =
      total ((worthwhile source settings).map fun col => (ofColumn source settings col).best.size) +
        (68 + 8 * source.rows) * (copied source settings).length := by
  rw [estimatedSize, List.map_map, ← total_map_filter _ fun col =>
    (ofColumn source settings col).isCompressible]
  congr 1
  · refine congrArg total (List.map_congr_left fun col member => ?_)
    have less := of_decide_eq_true (List.mem_filter.mp member).2
    exact Nat.min_eq_left (Nat.le_of_lt less)
  · refine total_map_const fun col member => ?_
    have refused := (List.mem_filter.mp member).2
    have more : (ofColumn source settings col).uncompressedSize ≤
        (ofColumn source settings col).best.size := by
      simpa [isCompressible] using refused
    rw [← uncompressedSize_ofColumn source settings col]
    exact Nat.min_eq_right more

/-- A group for columns that no other enabled encoding makes smaller, nor a copy. -/
structure Cheapest (block : Block) (settings : Settings) (cost : ColumnCosts) (group : Group) :
    Prop where
  columns : group.columns = cost.columns
  enabled : settings.allows cost.best.encoding = true
  built : ∀ transposed, Group.ofColumns (.oriented block transposed) cost.columns
    cost.best.encoding settings = .ok group
  least : ∀ transposed encoding other, settings.allows encoding = true →
    Group.ofColumns (.oriented block transposed) cost.columns encoding settings = .ok other →
      group.size ≤ other.size
  smaller : group.size < cost.uncompressedSize

end ColumnCosts

namespace Compressor

open ColumnCosts

variable {block : Block} {settings : Settings} {stats : Statistics} {plans : List ColumnPlan}
  {groups : List Group} {matrix : Packed}

/-- The groups of a matrix are those that were built, and if columns are left a copy of these. -/
theorem rest_of_assemble (valid : block.WellFormed) (short : block.rows ≤ maxIndex)
    (narrow : block.cols ≤ maxIndex) (h : assemble block groups = .ok matrix) :
    (leftover block.cols groups = [] ∧ matrix.groups = groups) ∨
      leftover block.cols groups ≠ [] ∧ ∃ copy nonZeros,
        copy.size = Block.estimateSize block.rows (leftover block.cols groups).length nonZeros ∧
        matrix.groups =
          groups ++ [⟨leftover block.cols groups, block.rows, .uncompressed copy⟩] := by
  have source : Source.WellFormed ⟨block, false⟩ := ⟨valid, short, narrow⟩
  unfold assemble at h
  simp only at h
  split at h
  next none_ =>
    exact .inl ⟨List.isEmpty_iff.mp none_, (Packed.fields_of_ofGroups h).2.2⟩
  next some_ =>
    have nonempty : leftover block.cols groups ≠ [] :=
      fun none_ => some_ (List.isEmpty_iff.mpr none_)
    obtain ⟨copy, copied, _, rows, _, _, taken⟩ :=
      Block.selectColumns_eq_ok source nonempty (increasing_leftover block.cols groups)
        fun _ => lt_of_mem_leftover
    obtain ⟨other, made, h⟩ := bind_eq_ok h
    obtain rfl := Except.ok.inj (copied.symm.trans made)
    obtain ⟨_, _, all⟩ := Packed.fields_of_ofGroups h
    rw [rows] at all
    exact .inr ⟨nonempty, copy, _, taken, all⟩

section Built

variable (valid : block.WellFormed) (short : block.rows ≤ maxIndex) (narrow : block.cols ≤ maxIndex)
  (built : Built block settings .cheapest plans groups)

include valid short narrow built

theorem Built.mapM_eq : (worthwhile ⟨block, false⟩ settings).mapM (fun col =>
    Group.ofColumns ⟨block, false⟩ [col] (ofColumn ⟨block, false⟩ settings col).best.encoding
      settings) = .ok groups := by
  have source : Source.WellFormed ⟨block, false⟩ := ⟨valid, short, narrow⟩
  have made := built.built
  have planned := built.reached.plans_eq source
  have singles : ∀ plan ∈ plans, plan.columns.length = 1 := by
    rw [planned]
    intro plan member
    obtain ⟨col, _, rfl⟩ := List.mem_map.mp member
    rfl
  rw [sourceFor, Group.ofPlans_congr (Source.alike_oriented valid short narrow _ false) singles,
    Group.ofPlans_of_singles singles, planned, List.mapM_map] at made
  exact made

theorem Built.cheapest : List.Forall₂ (Cheapest block settings)
    ((worthwhile ⟨block, false⟩ settings).map (ofColumn ⟨block, false⟩ settings)) groups := by
  have source : Source.WellFormed ⟨block, false⟩ := ⟨valid, short, narrow⟩
  refine List.forall₂_map_left_iff.mpr (forall₂_of_mapM (built.mapM_eq valid short narrow) ?_)
  intro col member group made
  obtain ⟨_, compressible⟩ := mem_worthwhile_iff.mp member
  have taken := size_best source compressible made
  have turned : ∀ transposed columns encoding,
      Group.ofColumns (.oriented block transposed) columns encoding settings =
        Group.ofColumns ⟨block, false⟩ columns encoding settings :=
    fun transposed columns encoding => Group.ofColumns_congr
      (Source.alike_oriented valid short narrow transposed false) columns encoding settings
  refine ⟨(Group.fields_ofColumns made).1, (best_of_isCompressible compressible).1,
    fun transposed => (turned ..).trans made, ?_, ?_⟩
  · intro transposed encoding other enabled found
    rw [turned] at found
    rw [taken]
    exact best_le_size source enabled found
  · rw [taken]
    exact of_decide_eq_true compressible

theorem Built.columns_eq :
    groups.map Group.columns = (worthwhile ⟨block, false⟩ settings).map ([·]) :=
  map_eq_of_mapM Group.columns ([·]) (built.mapM_eq valid short narrow) fun _ _ _ made =>
    (Group.fields_ofColumns made).1

theorem Built.leftover_eq :
    leftover block.cols groups = copied ⟨block, false⟩ settings := by
  have columns : groups.flatMap Group.columns = worthwhile ⟨block, false⟩ settings := by
    rw [List.flatMap_def, built.columns_eq valid short narrow, ← List.flatMap_def]
    exact List.flatMap_singleton' _
  rw [Compressor.leftover_eq, columns, copied]
  refine List.filter_congr fun col member => ?_
  have listed : (worthwhile ⟨block, false⟩ settings).contains col =
      (ofColumn ⟨block, false⟩ settings col).isCompressible := by
    rw [Bool.eq_iff_iff, List.contains_iff_mem, mem_worthwhile_iff]
    exact and_iff_right (List.mem_range.mp member)
  rw [listed]

theorem Built.total_size : total (groups.map Group.size) =
    total ((worthwhile ⟨block, false⟩ settings).map fun col =>
      (ofColumn ⟨block, false⟩ settings col).best.size) := by
  refine congrArg total (map_eq_of_mapM Group.size _ (built.mapM_eq valid short narrow) ?_)
  intro col member group made
  exact size_best ⟨valid, short, narrow⟩ (mem_worthwhile_iff.mp member).2 made

/-- The sum of the best sizes bounds the matrix, and is exact if no two columns share a copy. -/
theorem Built.size_le (assembled : assemble block groups = .ok matrix) :
    let bound := Block.headerSize +
      estimatedSize ((List.range block.cols).map (ofColumn ⟨block, false⟩ settings))
    matrix.size ≤ bound ∧ ((copied ⟨block, false⟩ settings).length ≤ 1 → matrix.size = bound) := by
  have estimated := estimatedSize_eq ⟨block, false⟩ settings
  have taken := built.total_size valid short narrow
  have left := built.leftover_eq valid short narrow
  have parts := rest_of_assemble valid short narrow assembled
  rw [left] at parts
  intro bound
  have estimated : bound = Block.headerSize + (total (groups.map Group.size) +
      (68 + 8 * block.rows) * (copied ⟨block, false⟩ settings).length) := by
    rw [taken]
    exact congrArg (Block.headerSize + ·) estimated
  rw [estimated]
  rcases parts with ⟨none_, all⟩ | ⟨some_, copy, nonZeros, size, all⟩
  · rw [Packed.size, all, none_, List.length_nil, Nat.mul_zero, Nat.add_zero]
    exact ⟨Nat.le_refl _, fun _ => rfl⟩
  · obtain ⟨less, same⟩ := Group.size_joint_copy block.rows
      (copied ⟨block, false⟩ settings).length nonZeros (List.length_pos_iff.mpr some_)
    have last : (⟨copied ⟨block, false⟩ settings, block.rows, .uncompressed copy⟩ : Group).size =
        Group.baseSize (copied ⟨block, false⟩ settings).length + Block.estimateSize block.rows
          (copied ⟨block, false⟩ settings).length nonZeros := congrArg (Group.baseSize _ + ·) size
    rw [Packed.size, all, List.map_append, total_append, List.map_singleton, total_cons, total_nil,
      last]
    refine ⟨by omega, fun few => ?_⟩
    have one := same (by
      have some_ := List.length_pos_iff.mpr some_
      omega)
    omega

end Built

/-- Each column that an enabled encoding makes smaller than a copy is stored alone, in the order of
the columns, and no other enabled encoding makes it smaller still; the other columns follow in one
copy. The estimate for the columns one by one bounds the size of the matrix, and is exact if at most
one column is copied. -/
theorem compress_greedy (valid : block.validate = .ok ()) (short : block.rows ≤ maxIndex)
    (narrow : block.cols ≤ maxIndex) {threads : Threads}
    (h : compress block settings threads = .ok (.packed matrix, stats)) :
    ∃ normal costs singles rest, settings.normalize = .ok normal ∧
      ofSource ⟨block, false⟩ normal = .ok costs ∧
      costs.map ColumnCosts.columns = (List.range block.cols).map ([·]) ∧
      matrix.groups = singles ++ rest ∧
      List.Forall₂ (Cheapest block normal) (costs.filter isCompressible) singles ∧
      let left := (costs.filter (!·.isCompressible)).flatMap ColumnCosts.columns
      (left = [] ∧ rest = [] ∨
        left ≠ [] ∧ ∃ copy, rest = [⟨left, block.rows, .uncompressed copy⟩]) ∧
      matrix.size ≤ Block.headerSize + estimatedSize costs ∧
      (left.length ≤ 1 → matrix.size = Block.headerSize + estimatedSize costs) := by
  have fit := Block.wellFormed_of_validate valid
  have source : Source.WellFormed ⟨block, false⟩ := ⟨fit, short, narrow⟩
  obtain ⟨normal, ranged, result, rfl⟩ := compressWith_eq_packed h
  have ends := ends_of_result result
  generalize (run block normal .cheapest).stats = stats at ends
  cases ends with
  | @compressed plans groups _ _ built assembled =>
    have sourced : ofSource ⟨block, false⟩ normal =
        .ok ((List.range block.cols).map (ofColumn ⟨block, false⟩ normal)) :=
      ofSource_eq source normal
    have kept : ((List.range block.cols).map (ofColumn ⟨block, false⟩ normal)).filter
        isCompressible = (worthwhile ⟨block, false⟩ normal).map (ofColumn ⟨block, false⟩ normal) :=
      List.filter_map ..
    have left : (((List.range block.cols).map (ofColumn ⟨block, false⟩ normal)).filter
        (!·.isCompressible)).flatMap ColumnCosts.columns = copied ⟨block, false⟩ normal := by
      rw [List.filter_map, List.flatMap_map]
      exact List.flatMap_singleton' _
    obtain ⟨bounded, exact_⟩ := built.size_le fit short narrow assembled
    have parts := rest_of_assemble fit short narrow assembled
    rw [built.leftover_eq fit short narrow] at parts
    have cheapest := built.cheapest fit short narrow
    rw [← kept] at cheapest
    rcases parts with ⟨none_, all⟩ | ⟨some_, copy, _, _, all⟩
    · refine ⟨normal, _, groups, [], ranged, sourced, List.map_map, ?_, cheapest, ?_⟩
      · rw [all, List.append_nil]
      · rw [left]
        exact ⟨.inl ⟨none_, rfl⟩, bounded, exact_⟩
    · refine ⟨normal, _, groups, _, ranged, sourced, List.map_map, all, cheapest, ?_⟩
      rw [left]
      exact ⟨.inr ⟨some_, copy, rfl⟩, bounded, exact_⟩

theorem exists_compress_packed {normal : Settings} (valid : block.validate = .ok ())
    (short : block.rows < 2 ^ 30) (narrow : block.cols ≤ maxIndex)
    (ranged : settings.normalize = .ok normal) (some_ : worthwhile ⟨block, false⟩ normal ≠ [])
    (small : Block.headerSize + estimatedSize ((List.range block.cols).map
      (ofColumn ⟨block, false⟩ normal)) < block.size) :
    ∃ matrix stats, compress block settings = .ok (.packed matrix, stats) := by
  have fit := Block.wellFormed_of_validate valid
  have rows := le_maxIndex_of_lt short
  obtain ⟨outcome, result⟩ := exists_run_cheapest fit short narrow ranged
  have ends := ends_of_result result
  generalize (run block normal .cheapest).stats = stats at ends
  cases ends with
  | incompressible classified none_ =>
    cases (classify_cheapest_eq ⟨fit, rows, narrow⟩ normal).symm.trans classified
    rw [compressibleCount, List.countP_eq_length_filter, List.filter_map, List.length_map] at none_
    exact absurd (List.length_eq_zero_iff.mp none_) some_
  | noPlans classified grouped =>
    obtain ⟨_, rfl, _, some_⟩ := classified.of_cheapest
    exact absurd grouped (group_cheapest_ne_nil some_)
  | notBeneficial built assembled large =>
    obtain ⟨bounded, _⟩ := built.size_le fit rows narrow assembled
    exact absurd (Nat.lt_of_le_of_lt (Nat.le_trans large bounded) small) (Nat.lt_irrefl _)
  | compressed =>
    exact ⟨_, _, compressWith_of_compressed ranged (Threads.serves_caller _) result⟩

/-- Eight rows with one number in the first column, five in the last one, and none between. -/
def tiedColumn : Block where
  rows := 8
  cols := 5
  data := .dense ((List.range 8).flatMap fun row =>
    [⟨if row = 0 then 9 else 0⟩, ⟨0⟩, ⟨0⟩, ⟨0⟩, ⟨UInt64.ofNat (row % 5 + 1)⟩]).toArray

/-- Both kinds of streams are enabled. -/
def streams : Settings := { encodings := [.ole, .rle] }

theorem sizes_tiedColumn :
    (ofColumn ⟨tiedColumn, false⟩ streams 0).sizes = [⟨.ole, 64⟩, ⟨.rle, 64⟩] ∧
      (∀ col ∈ [1, 2, 3],
        (ofColumn ⟨tiedColumn, false⟩ streams col).sizes = [⟨.ole, 20⟩, ⟨.rle, 20⟩]) ∧
      (ofColumn ⟨tiedColumn, false⟩ streams 4).sizes = [⟨.ole, 134⟩, ⟨.rle, 140⟩] := by
  have first : Bitmap.tupleRows [0] ⟨tiedColumn, false⟩ = [⟨0, [⟨9⟩]⟩] := by decide +kernel
  have between : ∀ col ∈ [1, 2, 3], Bitmap.tupleRows [col] ⟨tiedColumn, false⟩ = [] := by
    decide +kernel
  have last : Bitmap.tupleRows [4] ⟨tiedColumn, false⟩ = [⟨0, [⟨1⟩]⟩, ⟨1, [⟨2⟩]⟩, ⟨2, [⟨3⟩]⟩,
      ⟨3, [⟨4⟩]⟩, ⟨4, [⟨5⟩]⟩, ⟨5, [⟨1⟩]⟩, ⟨6, [⟨2⟩]⟩, ⟨7, [⟨3⟩]⟩] := by decide +kernel
  have one : Bitmap.ofTupleRows 1 [⟨0, [⟨9⟩]⟩] = ⟨1, #[⟨9⟩], [[0]]⟩ := by
    simp [Bitmap.ofTupleRows, Grouping.add, Grouping.start]
  have five : Bitmap.ofTupleRows 1 [⟨0, [⟨1⟩]⟩, ⟨1, [⟨2⟩]⟩, ⟨2, [⟨3⟩]⟩, ⟨3, [⟨4⟩]⟩, ⟨4, [⟨5⟩]⟩,
      ⟨5, [⟨1⟩]⟩, ⟨6, [⟨2⟩]⟩, ⟨7, [⟨3⟩]⟩] =
        ⟨1, #[⟨1⟩, ⟨2⟩, ⟨3⟩, ⟨4⟩, ⟨5⟩], [[0, 5], [1, 6], [2, 7], [3], [4]]⟩ := by
    simp [Bitmap.ofTupleRows, Grouping.add, Grouping.start, Std.HashMap.getElem_insert]
  refine ⟨?_, fun col listed => ?_, ?_⟩
  · simp only [ofColumn, CostProfile.ofColumns, List.length_singleton, first, one]
    decide +kernel
  · simp only [ofColumn, CostProfile.ofColumns, List.length_singleton, between col listed]
    change (ofProfile [1] (.ofBitmap (.ofTupleRows 1 []) 8 65535) streams).sizes = _
    decide +kernel
  · simp only [ofColumn, CostProfile.ofColumns, List.length_singleton, last, five]
    decide +kernel

/-- The best of two encodings that can be used is the first one, unless the other is smaller. -/
theorem best_of_sizes {source : Source} {col : Nat} {one other : EncodingCost}
    (sizes : (ofColumn source settings col).sizes = [one, other]) :
    (ofColumn source settings col).best = if one.size ≤ other.size then one else other := by
  have folded : (ofColumn source settings col).best =
      ((ofColumn source settings col).sizes.foldl smaller none).getD
        ⟨.uncompressed, (ofColumn source settings col).uncompressedSize⟩ := rfl
  rw [folded, sizes]
  simp only [List.foldl_cons, List.foldl_nil, smaller]
  split <;> rfl

theorem costs_tiedColumn :
    (∀ col ∈ [0, 1, 2, 3], (ofColumn ⟨tiedColumn, false⟩ streams col).isCompressible = true) ∧
      (ofColumn ⟨tiedColumn, false⟩ streams 4).isCompressible = false ∧
      [0, 1, 2, 3].map (fun col => (ofColumn ⟨tiedColumn, false⟩ streams col).best.size) =
        [64, 20, 20, 20] ∧
      estimatedSize ((List.range 5).map (ofColumn ⟨tiedColumn, false⟩ streams)) = 256 := by
  obtain ⟨first, between, last⟩ := sizes_tiedColumn
  have best : (ofColumn ⟨tiedColumn, false⟩ streams 0).best = ⟨.ole, 64⟩ := best_of_sizes first
  have empty : ∀ col ∈ [1, 2, 3], (ofColumn ⟨tiedColumn, false⟩ streams col).best = ⟨.ole, 20⟩ :=
    fun col listed => best_of_sizes (between col listed)
  have large : (ofColumn ⟨tiedColumn, false⟩ streams 4).best = ⟨.ole, 134⟩ := best_of_sizes last
  have raw : ∀ col, (ofColumn ⟨tiedColumn, false⟩ streams col).uncompressedSize = 132 :=
    uncompressedSize_ofColumn _ _
  have range : List.range 5 = [0, 1, 2, 3, 4] := rfl
  refine ⟨fun col listed => ?_, ?_, ?_, ?_⟩
  · rcases List.mem_cons.mp listed with rfl | others
    · rw [isCompressible, best, raw]
      decide
    · rw [isCompressible, empty col others, raw]
      decide
  · rw [isCompressible, large, raw]
    decide
  · simp only [List.map_cons, List.map_nil, best, empty 1 (by decide), empty 2 (by decide),
      empty 3 (by decide)]
  · simp only [range, estimatedSize, List.map_cons, List.map_nil, best, large, raw,
      empty 1 (by decide), empty 2 (by decide), empty 3 (by decide)]
    decide

/-- Streams of rows and of runs tie in the first column, which is stored alone as the empty ones
are; the last column is copied. -/
theorem compress_greedy_tiedColumn : ∃ matrix stats singles rest,
    compress tiedColumn streams = .ok (.packed matrix, stats) ∧ matrix.groups = singles ++ rest ∧
      (ofColumn ⟨tiedColumn, false⟩ streams 0).sizes = [⟨.ole, 64⟩, ⟨.rle, 64⟩] ∧
      singles.map Group.columns = [[0], [1], [2], [3]] ∧
      singles.map Group.size = [64, 20, 20, 20] ∧ rest.map Group.columns = [[4]] ∧
      matrix.size = 304 := by
  have valid : tiedColumn.validate = .ok () := by decide +kernel
  have ranged : streams.normalize = .ok streams := by decide +kernel
  obtain ⟨judged, refused, sizes, estimated⟩ := costs_tiedColumn
  obtain ⟨matrix, stats, made⟩ := exists_compress_packed valid (by decide) (by decide) ranged
    (List.ne_nil_of_mem (mem_worthwhile_iff.mpr ⟨show 0 < 5 by decide, judged 0 (by decide)⟩)) (by
      rw [show tiedColumn.cols = 5 from rfl, estimated]
      decide +kernel)
  obtain ⟨normal, costs, singles, rest, ranged', sourced, _, all, cheapest, copied, _, exact_⟩ :=
    compress_greedy valid (by decide) (by decide) made
  obtain rfl := Except.ok.inj (ranged.symm.trans ranged')
  have fit : Source.WellFormed ⟨tiedColumn, false⟩ :=
    ⟨Block.wellFormed_of_validate valid, by decide, by decide⟩
  obtain rfl : costs = (List.range 5).map (ofColumn ⟨tiedColumn, false⟩ streams) :=
    Except.ok.inj (sourced.symm.trans (ofSource_eq fit streams))
  have range : List.range 5 = [0, 1, 2, 3, 4] := rfl
  rw [estimated] at exact_
  simp only [range, List.map_cons, List.map_nil, List.filter_cons, judged 0 (by decide),
    judged 1 (by decide), judged 2 (by decide), judged 3 (by decide), refused, Bool.not_true,
    Bool.not_false, Bool.false_eq_true, ↓reduceIte, List.filter_nil, List.flatMap_cons,
    List.flatMap_nil, List.append_nil] at cheapest copied exact_
  have columns : ∀ col, (ofColumn ⟨tiedColumn, false⟩ streams col).columns = [col] := fun _ => rfl
  rw [columns] at copied exact_
  have size : ∀ col ∈ [0, 1, 2, 3], ∀ group,
      Cheapest tiedColumn streams (ofColumn ⟨tiedColumn, false⟩ streams col) group →
        group.size = (ofColumn ⟨tiedColumn, false⟩ streams col).best.size :=
    fun col listed group single => size_best fit (judged col listed) (single.built false)
  obtain ⟨none_, _⟩ | ⟨_, copy, rfl⟩ := copied
  · cases none_
  · obtain _ | ⟨one, _ | ⟨two, _ | ⟨three, _ | ⟨four, none_⟩⟩⟩⟩ := cheapest
    cases none_
    refine ⟨matrix, stats, _, _, made, all, sizes_tiedColumn.1, ?_, ?_, rfl, exact_ (by decide)⟩
    · simp only [List.map_cons, List.map_nil, one.columns, two.columns, three.columns,
        four.columns, columns]
    · rw [← sizes]
      simp only [List.map_cons, List.map_nil, size 0 (by decide) _ one, size 1 (by decide) _ two,
        size 2 (by decide) _ three, size 3 (by decide) _ four]

end Compressor

end PackedMatrix
