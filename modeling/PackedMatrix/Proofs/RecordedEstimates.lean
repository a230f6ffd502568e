import PackedMatrix.Proofs.PlanCovers
import PackedMatrix.Proofs.PlanSizes
import PackedMatrix.Proofs.Workers

namespace PackedMatrix

namespace ColumnCosts

theorem find?_sizes {profile : CostProfile} {encoding : Encoding} {size : Nat}
    (sized : profile.sizeOf encoding = some size) {encodings : List Encoding}
    (listed : encoding ∈ encodings) :
    (encodings.filterMap fun other => (profile.sizeOf other).map fun size =>
      (⟨other, size⟩ : EncodingCost)).find? (·.encoding == encoding) = some ⟨encoding, size⟩ := by
  induction encodings with
  | nil => cases listed
  | cons other rest ih =>
    rw [List.filterMap_cons]
    by_cases same : other = encoding
    · subst same
      rw [sized, Option.map_some, List.find?_cons_of_pos (by simp)]
    · have later := ih ((List.mem_cons.mp listed).resolve_left fun here => same here.symm)
      cases profile.sizeOf other with
      | none => exact later
      | some taken =>
        rw [Option.map_some, List.find?_cons_of_neg (by simpa using same)]
        exact later

/-- An enabled encoding has the size that the profile names for it. -/
theorem sizeOf?_ofProfile {columns : List Nat} {profile : CostProfile} {settings : Settings}
    {encoding : Encoding} {size : Nat} (allowed : settings.allows encoding = true)
    (sized : profile.sizeOf encoding = some size) :
    (ofProfile columns profile settings).sizeOf? encoding = some size := by
  have listed : encoding ∈ Settings.orderedEncodings settings.encodings := by
    refine List.mem_filter.mpr ⟨?_, allowed⟩
    cases encoding <;> decide
  rw [sizeOf?, ofProfile, find?_sizes sized listed]
  rfl

end ColumnCosts

namespace ColumnPlan

/-- The plan with its columns in order. -/
def sorted (plan : ColumnPlan) : ColumnPlan := { plan with columns := plan.columns.mergeSort }

/-- Accepted plans are the given ones with their columns in order; they have columns and enabled
encodings. -/
theorem checkFrom_eq_ok {cols group : Nat} {settings : Settings} {owners : Array (Option Nat)}
    {plans accepted : List ColumnPlan}
    (h : checkFrom cols settings group owners plans = .ok accepted) :
    accepted = plans.map sorted ∧
      ∀ plan ∈ accepted, plan.columns ≠ [] ∧ settings.allows plan.encoding = true := by
  induction plans generalizing group owners accepted with
  | nil =>
    cases h
    exact ⟨rfl, by simp⟩
  | cons plan rest ih =>
    obtain ⟨nonempty, allowed, _, others, _, checked, rfl⟩ := checkFrom_cons_eq_ok h
    obtain ⟨same, each⟩ := ih checked
    refine ⟨by rw [same]; rfl, ?_⟩
    intro other member
    rcases List.mem_cons.mp member with rfl | later
    · have length : plan.columns.mergeSort.length = plan.columns.length := List.length_mergeSort _
      refine ⟨fun none => nonempty ?_, allowed⟩
      exact List.length_eq_zero_iff.mp (length.symm.trans (List.length_eq_zero_iff.mpr none))
    · exact each other later

end ColumnPlan

namespace Compressor

section Plans

variable {source : Source} {settings : Settings} {plans : List ColumnPlan}

theorem estimate_eq_ok (valid : source.WellFormed)
    (requestable : ∀ plan ∈ plans, settings.allows plan.encoding = true ∧
      plan.encoding.isRequestable = true) {size : Nat}
    (h : estimate source settings plans = .ok size) :
    size = total (plans.map (ColumnPlan.jointSize source settings.offsetBlockSize)) ∧
      ∀ plan ∈ plans, plan.columns.Pairwise (· < ·) ∧ ∀ col ∈ plan.columns, col < source.cols := by
  obtain ⟨sizes, made, h⟩ := bind_eq_ok h
  cases h
  have read : ∀ plan ∈ plans, ∀ taken, (do
      let costs ← ColumnCosts.ofColumns source settings plan.columns
      pure ((costs.sizeOf? plan.encoding).getD costs.best.size) : Except PackError Nat) =
          .ok taken →
        (plan.columns.Pairwise (· < ·) ∧ ∀ col ∈ plan.columns, col < source.cols) ∧
          taken = plan.jointSize source settings.offsetBlockSize := by
    intro plan member taken found
    obtain ⟨costs, profiled, found⟩ := bind_eq_ok found
    cases found
    obtain ⟨bitmap, extracted, profiled⟩ := bind_eq_ok profiled
    cases profiled
    obtain ⟨sorted, inside, fit, _⟩ := Bitmap.extract_eq_ok valid extracted
    rw [Bitmap.extract_of_inside valid sorted inside] at extracted
    cases extracted
    obtain ⟨allowed, asked⟩ := requestable plan member
    obtain ⟨size, sized⟩ := CostProfile.exists_sizeOf fit asked settings.offsetBlockSize
    refine ⟨⟨sorted, inside⟩, ?_⟩
    rw [ColumnPlan.jointSize, CostProfile.ofColumns, sized]
    exact congrArg (Option.getD · _) (ColumnCosts.sizeOf?_ofProfile allowed sized)
  refine ⟨?_, ?_⟩
  · have joint := map_eq_of_mapM id (ColumnPlan.jointSize source settings.offsetBlockSize) made
      fun plan member taken found => (read plan member taken found).2
    rw [List.map_id] at joint
    rw [joint]
  · intro plan member
    obtain ⟨taken, _, found⟩ := exists_of_mapM made member
    exact (read plan member taken found).1

/-- Plans are built as what they would take as one group each, with 16 bytes more for every mixed
plan and without what its empty columns would add. -/
theorem total_builtSize_add_savedBytes (valid : source.WellFormed)
    (readable : ∀ plan ∈ plans, plan.encoding.isRequestable = true ∧
      plan.columns.Pairwise (· < ·) ∧ ∀ col ∈ plan.columns, col < source.cols) (blockSize : Nat) :
    total (plans.map (ColumnPlan.builtSize source blockSize)) +
        total (plans.map (ColumnPlan.savedBytes source blockSize)) =
      total (plans.map (ColumnPlan.jointSize source blockSize)) +
        16 * plans.countP (ColumnPlan.isMixed source) := by
  induction plans with
  | nil => rfl
  | cons plan rest ih =>
    obtain ⟨requestable, sorted, inside⟩ := readable plan (by simp)
    have here := ColumnPlan.builtSize_add_savedBytes valid sorted inside requestable blockSize
    have later := ih fun other member => readable other (List.mem_cons_of_mem _ member)
    rw [List.map_cons, List.map_cons, List.map_cons, total_cons, total_cons, total_cons,
      List.countP_cons]
    by_cases mixed : plan.isMixed source = true
    · rw [if_pos mixed] at here ⊢
      omega
    · rw [if_neg mixed] at here ⊢
      omega

theorem size_ofPlans (valid : source.WellFormed) (readable : ∀ plan ∈ plans, plan.columns ≠ [] ∧
      plan.columns.Pairwise (· < ·) ∧ ∀ col ∈ plan.columns, col < source.cols) {groups : List Group}
    (h : Group.ofPlans source settings plans = .ok groups) :
    total (groups.map Group.size) =
      total (plans.map (ColumnPlan.builtSize source settings.offsetBlockSize)) := by
  obtain ⟨parts, made, h⟩ := bind_eq_ok h
  cases h
  have each := map_eq_of_mapM (fun part => total (part.map Group.size))
    (ColumnPlan.builtSize source settings.offsetBlockSize) made (by
      intro plan member part built
      obtain ⟨nonempty, sorted, inside⟩ := readable plan member
      exact Group.size_ofPlan valid sorted inside nonempty built)
  rw [List.flatMap_id, total_map_flatten, each]

end Plans

theorem leftover_of_ofPlans {source : Source} {settings : Settings} {plans : List ColumnPlan}
    {groups : List Group} (h : Group.ofPlans source settings plans = .ok groups) {cols : Nat}
    (every : ∀ col, col < cols → ∃ plan ∈ plans, col ∈ plan.columns) :
    leftover cols groups = [] := by
  rw [leftover_eq, List.filter_eq_nil_iff]
  intro col member
  obtain ⟨plan, planned, inPlan⟩ := every col (List.mem_range.mp member)
  have listed := List.mem_flatMap.mpr ⟨plan, planned, inPlan⟩
  simpa using (Group.columns_ofPlans h).mem_iff.mpr listed

section Build

variable {block : Block} {settings : Settings} {plans : List ColumnPlan} {stats : Statistics}
  {matrix : Packed}

/-- What is recorded when plans for every column end up in a compressed matrix. -/
theorem sizes_of_build (valid : block.WellFormed) (short : block.rows ≤ maxIndex)
    (narrow : block.cols ≤ maxIndex) (investigate : settings.investigateEstimate = true)
    (planned : ∀ plan ∈ plans, plan.columns ≠ [] ∧ settings.allows plan.encoding = true ∧
      plan.encoding.isRequestable = true)
    (every : ∀ col, col < block.cols → ∃ plan ∈ plans, col ∈ plan.columns)
    (h : (build block settings plans stats).result = .ok (.compressed matrix)) :
    let source := Source.oriented block
      (settings.shouldTranspose block.rows block.cols plans.length)
    let joint := total (plans.map (ColumnPlan.jointSize source settings.offsetBlockSize))
    let built := total (plans.map (ColumnPlan.builtSize source settings.offsetBlockSize))
    let saved := total (plans.map (ColumnPlan.savedBytes source settings.offsetBlockSize))
    (build block settings plans stats).stats.estimatedSize = some joint ∧
      (build block settings plans stats).stats.compressedSize = Block.headerSize + built ∧
        built + saved = joint + 16 * plans.countP (ColumnPlan.isMixed source) := by
  obtain ⟨groups, built, assembled, small, estimated⟩ := build_eq_compressed h
  obtain ⟨size, sized, recorded⟩ := estimated investigate
  have source := Source.wellFormed_oriented valid short narrow
    (settings.shouldTranspose block.rows block.cols plans.length)
  obtain ⟨same, readable⟩ := estimate_eq_ok source
    (fun plan member => (planned plan member).2) sized
  have taken := size_ofPlans source
    (fun plan member => ⟨(planned plan member).1, readable plan member⟩) built
  have none_ := leftover_of_ofPlans built every
  obtain ⟨covered, _, _, parts⟩ := assemble_eq_ok assembled
  have sums := total_builtSize_add_savedBytes source
    (fun plan member => ⟨(planned plan member).2.2, readable plan member⟩) settings.offsetBlockSize
  refine ⟨by rw [recorded, same], ?_, sums⟩
  rcases parts with all | ⟨copy, _, all⟩
  · rw [small, Packed.size, all, taken]
  · have last := covered.valid ⟨leftover block.cols groups, copy.rows, .uncompressed copy⟩
      (by rw [all]; simp)
    exact absurd none_ (Group.columns_of_validate last).1

end Build

/-- Four rows of a one, and a column that stores nothing. -/
def halfEmpty : Block where
  rows := 4
  cols := 2
  data := .sparse ⟨#[0, 1, 2, 3, 4], #[0, 0, 0, 0], Array.replicate 4 ⟨0x3ff0000000000000⟩⟩

/-- The columns are planned together and become two groups. -/
def halfEmptyPacked : Packed where
  rows := 4
  cols := 2
  groups := [⟨[1], 4, .empty⟩, ⟨[0], 4, .const ⟨#[⟨0x3ff0000000000000⟩], 1⟩⟩]
  owners := #[1, 0]

/-- Settings that transpose the block and ask for the estimate. -/
def investigated : Settings := { transposeInput := .always, investigateEstimate := true }

/-- The bitmap of both columns, which are read from the transpose. -/
theorem ofTupleRows_halfEmpty : Bitmap.ofTupleRows 2
    (Bitmap.tupleRows [0, 1] (.oriented halfEmpty true)) =
      ⟨2, #[⟨0x3ff0000000000000⟩, Cell.zero], [[0, 1, 2, 3]]⟩ := by
  have rows : Bitmap.tupleRows [0, 1] (.oriented halfEmpty true) =
      (List.range 4).map fun row => ⟨row, [⟨0x3ff0000000000000⟩, Cell.zero]⟩ := by decide +kernel
  rw [rows]
  simp [Bitmap.ofTupleRows, Grouping.add, Grouping.start, List.range_succ]

theorem extract_halfEmpty (transposed : Bool) :
    Bitmap.extract [0] (.oriented halfEmpty transposed) =
        .ok ⟨1, #[⟨0x3ff0000000000000⟩], [[0, 1, 2, 3]]⟩ ∧
      Bitmap.extract [1] (.oriented halfEmpty transposed) = .ok ⟨1, #[], []⟩ := by
  have rows : Bitmap.tupleRows [0] (.oriented halfEmpty transposed) =
      (List.range 4).map fun row => ⟨row, [⟨0x3ff0000000000000⟩]⟩ := by
    cases transposed <;> decide +kernel
  have none_ : Bitmap.tupleRows [1] (.oriented halfEmpty transposed) = [] := by
    cases transposed <;> decide +kernel
  have grouped : Bitmap.ofTupleRows 1 (Bitmap.tupleRows [0] (.oriented halfEmpty transposed)) =
      ⟨1, #[⟨0x3ff0000000000000⟩], [[0, 1, 2, 3]]⟩ := by
    rw [rows]
    simp [Bitmap.ofTupleRows, Grouping.add, Grouping.start, List.range_succ]
  constructor
  · simp only [Bitmap.extract, List.length_singleton, grouped]
    cases transposed <;> decide +kernel
  · simp only [Bitmap.extract, List.length_singleton, none_]
    cases transposed <;> decide +kernel

/-- Whatever is asked for, the first column is stored as a constant and the second as empty. -/
theorem ofColumns_halfEmpty (transposed : Bool) (encoding : Encoding) (settings : Settings) :
    Group.ofColumns (.oriented halfEmpty transposed) [0] encoding settings =
        .ok ⟨[0], 4, .const ⟨#[⟨0x3ff0000000000000⟩], 1⟩⟩ ∧
      Group.ofColumns (.oriented halfEmpty transposed) [1] encoding settings =
        .ok ⟨[1], 4, .empty⟩ := by
  obtain ⟨first, second⟩ := extract_halfEmpty transposed
  have rows : (Source.oriented halfEmpty transposed).rows = 4 := by cases transposed <;> rfl
  have filled : (⟨1, #[⟨0x3ff0000000000000⟩], [[0, 1, 2, 3]]⟩ : Bitmap).WellFormed 1 4 := by
    refine ⟨rfl, rfl, ?_, ?_, ?_, ?_⟩ <;> simp
  have empty : (⟨1, #[], []⟩ : Bitmap).WellFormed 1 4 := by
    refine ⟨rfl, rfl, ?_, ?_, ?_, ?_⟩ <;> simp
  have checked : (⟨1, #[⟨0x3ff0000000000000⟩], [[0, 1, 2, 3]]⟩ : Bitmap).validate [0] 4 = .ok () :=
    filled.validate
  have checked' : (⟨1, #[], []⟩ : Bitmap).validate [1] 4 = .ok () := empty.validate
  constructor
  · rw [Group.ofColumns, first, rows]
    simp only [mapError_ok, bind, Except.bind, Group.ofBitmap, checked]
    rfl
  · rw [Group.ofColumns, second, rows]
    simp only [mapError_ok, bind, Except.bind, Group.ofBitmap, checked']
    rfl

theorem ofPlans_halfEmpty : Group.ofPlans (.oriented halfEmpty true) investigated [⟨[0, 1], .ddc⟩] =
    .ok halfEmptyPacked.groups := by
  obtain ⟨second, _⟩ := ofColumns_halfEmpty true .ddc investigated
  have split : Group.Splits (.oriented halfEmpty true) ⟨[0, 1], .ddc⟩ := by
    refine ⟨rfl, ?_, by decide, ?_⟩ <;> decide +kernel
  have empty : [0, 1].filter (Source.oriented halfEmpty true).isColumnEmpty = [1] := by
    decide +kernel
  have others : [0, 1].filter (fun col => !(Source.oriented halfEmpty true).isColumnEmpty col) =
      [0] := by decide +kernel
  simp only [Group.ofPlans, Pool.collect_caller, List.mapM_cons, List.mapM_nil,
    Group.ofPlan_of_splits split, Group.splitEmpty, empty, others, second]
  rfl

/-- The two groups take 72 bytes, and the one that is estimated would take 64. -/
theorem compressWith_halfEmpty : ∃ stats, compressWith halfEmpty investigated
      (.fixed [⟨[0, 1], .ddc⟩]) = .ok (.packed halfEmptyPacked, stats) ∧
    stats.estimatedSize = some 64 ∧ stats.compressedSize = 120 := by
  have ranged : investigated.normalize = .ok investigated := by decide +kernel
  have sorted : [0, 1].mergeSort = [0, 1] := List.mergeSort_of_pairwise (by decide)
  have grouped : group [] 2 investigated (.fixed [⟨[0, 1], .ddc⟩]) = .ok [⟨[0, 1], .ddc⟩] := by
    simp only [group, Grouper.fixed, bind, Except.bind, ColumnPlan.validate, ColumnPlan.checkFrom,
      sorted]
    decide
  have extracted : Bitmap.extract [0, 1] (.oriented halfEmpty true) =
      .ok ⟨2, #[⟨0x3ff0000000000000⟩, Cell.zero], [[0, 1, 2, 3]]⟩ := by
    simp only [Bitmap.extract, List.length_cons, List.length_nil, Nat.reduceAdd,
      ofTupleRows_halfEmpty]
    decide +kernel
  have estimated : estimate (.oriented halfEmpty true) investigated [⟨[0, 1], .ddc⟩] = .ok 64 := by
    simp only [estimate, List.mapM_cons, List.mapM_nil, ColumnCosts.ofColumns, extracted, bind,
      Except.bind, pure, Except.pure]
    decide +kernel
  have turned : investigated.shouldTranspose halfEmpty.rows halfEmpty.cols 1 = true := rfl
  have finished : run halfEmpty investigated (.fixed [⟨[0, 1], .ddc⟩]) =
      finish halfEmpty halfEmptyPacked.groups
        { ran { ran (ran (ran (.start halfEmpty.size) .classify) .coCode) .transpose with
            transposed := true } .compress with estimatedSize := some 64 } := by
    rw [run_of_group rfl grouped (by simp)]
    unfold build
    simp only [Block.transposeOn_eq, Source.oriented_def]
    simp only [List.length_singleton, turned, ofPlans_halfEmpty, estimated]
    rfl
  have compressed : (run halfEmpty investigated (.fixed [⟨[0, 1], .ddc⟩])).result =
      .ok (.compressed halfEmptyPacked) := by
    rw [finished]
    decide +kernel
  refine ⟨_, compressWith_of_compressed ranged (Threads.serves_caller _) compressed, ?_, ?_⟩
  · rw [finished]
    decide +kernel
  · rw [finished]
    decide +kernel

section Recorded

variable {block : Block} {settings : Settings} {plans : List ColumnPlan} {stats : Statistics}
  {matrix : Packed}

/-- If every column is planned, an attempt that ends with a compressed matrix records as estimate
what the plans take as one group each, and as size what they are built as behind a header. The two
agree exactly if what the empty columns of mixed plans would add is 16 bytes for every mixed plan,
and so whenever no plan mixes empty and other columns of a transposed sparse block. -/
theorem compressWith_estimatedSize {threads : Threads} (valid : block.validate = .ok ())
    (short : block.rows ≤ maxIndex) (narrow : block.cols ≤ maxIndex)
    (every : ∀ col, col < block.cols → ∃ plan ∈ plans, col ∈ plan.columns)
    (investigate : settings.investigateEstimate = true)
    (h : compressWith block settings (.fixed plans) threads = .ok (.packed matrix, stats)) :
    ∃ normal size, settings.normalize = .ok normal ∧ stats.estimatedSize = some size ∧
      let accepted := plans.map ColumnPlan.sorted
      let source := Source.oriented block
        (normal.shouldTranspose block.rows block.cols accepted.length)
      let joint := total (accepted.map (ColumnPlan.jointSize source normal.offsetBlockSize))
      let built := total (accepted.map (ColumnPlan.builtSize source normal.offsetBlockSize))
      let saved := total (accepted.map (ColumnPlan.savedBytes source normal.offsetBlockSize))
      let mixed := accepted.countP (ColumnPlan.isMixed source)
      size = joint ∧ stats.compressedSize = Block.headerSize + built ∧
        stats.compressedSize + saved = size + Block.headerSize + 16 * mixed ∧
        (size + Block.headerSize = stats.compressedSize ↔ saved = 16 * mixed) ∧
        ((∀ plan ∈ accepted, plan.isMixed source = false) →
          size + Block.headerSize = stats.compressedSize) := by
  obtain ⟨normal, ranged, compressed, rfl⟩ := compressWith_eq_packed h
  obtain ⟨costs, accepted, before, grouped, ran⟩ := run_eq_compressed compressed
  obtain ⟨requestable, investigates⟩ := Settings.normalize_eq_ok ranged
  obtain ⟨given, fixed, checked⟩ := bind_eq_ok grouped
  cases fixed
  obtain ⟨rfl, each⟩ := ColumnPlan.checkFrom_eq_ok (mapError_eq_ok checked)
  rw [ran] at compressed ⊢
  obtain ⟨recorded, small, sums⟩ := sizes_of_build (Block.wellFormed_of_validate valid) short narrow
    (investigates.trans investigate)
    (fun plan member => ⟨(each plan member).1, (each plan member).2,
      requestable _ (each plan member).2⟩) (by
        intro col inside
        obtain ⟨plan, listed, member⟩ := every col inside
        exact ⟨plan.sorted, List.mem_map_of_mem listed, List.mem_mergeSort.mpr member⟩) compressed
  refine ⟨normal, _, ranged, recorded, rfl, small, ?_, ?_, ?_⟩
  · rw [small]
    omega
  · rw [small]
    omega
  · intro pure_
    rw [small, Nat.add_comm]
    congr 2
    apply List.map_congr_left
    intro plan member
    rw [ColumnPlan.builtSize, pure_ plan member]
    rfl

end Recorded

/-- The recorded estimate of a mixed plan is the size of one group, which is not built. -/
theorem compressWith_estimatedSize_halfEmpty : ∃ stats, compressWith halfEmpty investigated
      (.fixed [⟨[0, 1], .ddc⟩]) = .ok (.packed halfEmptyPacked, stats) ∧
    stats.estimatedSize =
      some (ColumnPlan.jointSize (.oriented halfEmpty true) 65535 ⟨[0, 1], .ddc⟩) ∧
    stats.compressedSize = Block.headerSize +
      ColumnPlan.builtSize (.oriented halfEmpty true) 65535 ⟨[0, 1], .ddc⟩ := by
  obtain ⟨stats, made, _⟩ := compressWith_halfEmpty
  have every : ∀ col, col < halfEmpty.cols →
      ∃ plan ∈ [(⟨[0, 1], .ddc⟩ : ColumnPlan)], col ∈ plan.columns := by
    intro col inside
    refine ⟨_, List.mem_singleton_self _, ?_⟩
    have inside : col < 2 := inside
    simp
    omega
  obtain ⟨normal, size, ranged, recorded, joint, small, _⟩ := compressWith_estimatedSize
    (by decide +kernel) (by decide) (by decide) every rfl made
  have kept : investigated.normalize = .ok investigated := by decide +kernel
  obtain rfl : investigated = normal := Except.ok.inj (kept.symm.trans ranged)
  have sorted : ColumnPlan.sorted ⟨[0, 1], .ddc⟩ = ⟨[0, 1], .ddc⟩ :=
    congrArg (ColumnPlan.mk · _) (List.mergeSort_of_pairwise (by decide))
  rw [List.map_singleton, sorted] at joint small
  rw [joint] at recorded
  exact ⟨stats, made, recorded, small⟩

/-- A mixed plan for which estimate and header do not make up the compressed size. -/
theorem estimatedSize_add_ne_halfEmpty : halfEmpty.validate = .ok () ∧
    (∀ col, col < halfEmpty.cols →
      ∃ plan ∈ [(⟨[0, 1], .ddc⟩ : ColumnPlan)], col ∈ plan.columns) ∧
    ∃ stats, compressWith halfEmpty investigated (.fixed [⟨[0, 1], .ddc⟩]) =
        .ok (.packed halfEmptyPacked, stats) ∧
      ¬ ∃ size, stats.estimatedSize = some size ∧
        size + Block.headerSize = stats.compressedSize := by
  refine ⟨by decide +kernel, by decide +kernel, ?_⟩
  obtain ⟨stats, made, estimated, small⟩ := compressWith_halfEmpty
  refine ⟨stats, made, ?_⟩
  rintro ⟨size, recorded, sum⟩
  rw [estimated] at recorded
  cases recorded
  rw [small] at sum
  cases sum

end Compressor

end PackedMatrix
