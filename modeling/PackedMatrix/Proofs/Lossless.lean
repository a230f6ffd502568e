import PackedMatrix.Proofs.Workers

namespace PackedMatrix

namespace Compressor

variable {block : Block} {settings : Settings} {grouper : Grouper} {groups : List Group}
  {plans : List ColumnPlan} {matrix : Packed}

theorem shows_copy (valid : block.WellFormed) (short : block.rows ≤ maxIndex)
    (narrow : block.cols ≤ maxIndex) {columns : List Nat} {copy : Block} (nonempty : columns ≠ [])
    (sorted : columns.Pairwise (· < ·)) (inside : ∀ col ∈ columns, col < block.cols)
    (copied : block.selectColumns columns false = .ok copy) :
    (⟨columns, copy.rows, .uncompressed copy⟩ : Group).Shows block.cell := by
  have source : (⟨block, false⟩ : Source).WellFormed := ⟨valid, short, narrow⟩
  obtain ⟨made, run, stored, rows, cols, cells, _⟩ :=
    Block.selectColumns_eq_ok source nonempty sorted inside
  obtain rfl : made = copy := Except.ok.inj (run.symm.trans copied)
  refine Group.shows_uncompressed stored cols sorted ?_
  intro row place within inRow
  rw [rows] at inRow
  exact cells row place within inRow

/-- Every group of the assembled matrix shows the cells of the block. -/
theorem shows_of_assemble (valid : block.WellFormed) (short : block.rows ≤ maxIndex)
    (narrow : block.cols ≤ maxIndex) {transposed : Bool}
    (built : Group.ofPlans (.oriented block transposed) settings plans = .ok groups)
    (assembled : assemble block groups = .ok matrix) :
    ∀ group ∈ matrix.groups, group.Shows block.cell := by
  obtain ⟨covered, rows, cols, parts⟩ := assemble_eq_ok assembled
  have source := Source.wellFormed_oriented valid short narrow transposed
  intro group member
  obtain ⟨nonempty, sorted⟩ := Group.columns_of_validate (covered.valid group member)
  have inside : ∀ col ∈ group.columns, col < block.cols :=
    fun col here => cols ▸ covered.column_lt member here
  have planned : group ∈ groups → group.Shows block.cell := by
    intro listed
    obtain ⟨height, shown⟩ := Group.shows_ofPlans source built listed nonempty sorted (by
      rw [Source.cols_oriented]
      exact inside)
    rw [Source.rows_oriented] at height
    refine shown.congr fun row col inRow here => ?_
    exact Source.cell_oriented valid short narrow transposed (height ▸ inRow) (inside col here)
  rcases parts with all | ⟨copy, copied, all⟩
  · exact planned (all ▸ member)
  · rw [all] at member
    rcases List.mem_append.mp member with old | rest
    · exact planned old
    · obtain rfl := List.mem_singleton.mp rest
      exact shows_copy valid short narrow nonempty sorted inside copied

/-- Compressing a valid block gives a matrix that reads back its cells and decompresses to a dense
block of them, or hands the block back. -/
theorem compressWith_lossless (valid : block.validate = .ok ()) (short : block.rows ≤ maxIndex)
    (narrow : block.cols ≤ maxIndex) {threads : Threads} {result : Matrix} {stats : Statistics}
    (h : compressWith block settings grouper threads = .ok (result, stats)) :
    (∀ packed, result = .packed packed →
      (∀ row col, packed.get? row col = .ok (block.get? row col)) ∧
        ∃ cells, packed.decompress = .ok ⟨block.rows, block.cols, .dense cells⟩ ∧
          cells.size = block.rows * block.cols ∧ ∀ row col,
            (⟨block.rows, block.cols, .dense cells⟩ : Block).get? row col = block.get? row col) ∧
      ∀ plain, result = .plain plain → plain = block := by
  have fit := Block.wellFormed_of_validate valid
  refine ⟨?_, ?_⟩
  · rintro packed rfl
    obtain ⟨normal, _, compressed, _⟩ := compressWith_eq_packed h
    obtain ⟨costs, plans, before, _, ran⟩ := run_eq_compressed compressed
    rw [ran] at compressed
    obtain ⟨groups, built, assembled, _⟩ := build_eq_compressed compressed
    obtain ⟨covered, rows, cols, _⟩ := assemble_eq_ok assembled
    have shown := shows_of_assemble fit short narrow built assembled
    refine ⟨?_, ?_⟩
    · intro row col
      rw [covered.get?_eq shown, rows, cols]
      rfl
    · obtain ⟨cells, plain, size, last⟩ := covered.decompress_eq shown
      rw [rows, cols] at plain size last
      refine ⟨cells, plain, size, ?_⟩
      intro row col
      by_cases inside : row < block.rows ∧ col < block.cols
      · have here : (⟨block.rows, block.cols, .dense cells⟩ : Block).get? row col =
            some (cells.getD (row * block.cols + col) Cell.zero) := if_pos inside
        rw [here, last row col inside.1 inside.2, Block.get?_eq inside.1 inside.2]
      · rw [Block.get?, Block.get?, if_neg inside, if_neg inside]
  · rintro plain rfl
    exact eq_of_compressWith_plain h

/-- Three columns of zeros, and one with a negative zero and a NaN. -/
def mostlyZeros : Block where
  rows := 8
  cols := 4
  data := .dense (#[⟨0⟩, ⟨0⟩, ⟨0⟩, ⟨0x8000000000000000⟩, ⟨0⟩, ⟨0⟩, ⟨0⟩, ⟨0x7ff0000000000001⟩] ++
    Array.replicate 24 Cell.zero)

/-- The zeros take no space, and the last column is copied. -/
def mostlyZerosPacked : Packed where
  rows := 8
  cols := 4
  groups := [⟨[0, 1, 2], 8, .empty⟩,
    ⟨[3], 8, .uncompressed ⟨8, 1, .dense (#[⟨0x8000000000000000⟩, ⟨0x7ff0000000000001⟩] ++
      Array.replicate 6 Cell.zero)⟩⟩]
  owners := #[0, 0, 0, 1]

theorem compressWith_lossless_mostlyZeros :
    ∃ stats, compressWith mostlyZeros {} (.fixed [⟨[0, 1, 2], .ddc⟩]) =
        .ok (.packed mostlyZerosPacked, stats) ∧
      ∀ row col, mostlyZerosPacked.get? row col = .ok (mostlyZeros.get? row col) := by
  have valid : mostlyZeros.validate = .ok () := by decide +kernel
  have ranged : ({} : Settings).normalize = .ok {} := by decide +kernel
  have sorted : [0, 1, 2].mergeSort = [0, 1, 2] := List.mergeSort_of_pairwise (by decide)
  have grouped : group [] 4 {} (.fixed [⟨[0, 1, 2], .ddc⟩]) = .ok [⟨[0, 1, 2], .ddc⟩] := by
    simp only [group, Grouper.fixed, bind, Except.bind, ColumnPlan.validate, ColumnPlan.checkFrom,
      sorted]
    decide
  have ran : (run mostlyZeros {} (.fixed [⟨[0, 1, 2], .ddc⟩])).result =
      .ok (.compressed mostlyZerosPacked) := by
    rw [run_of_group rfl grouped (by simp)]
    decide +kernel
  have made := compressWith_of_compressed ranged (Threads.serves_caller _) ran
  have lossless := compressWith_lossless valid (by decide) (by decide) made
  exact ⟨_, made, (lossless.1 mostlyZerosPacked rfl).1⟩

end Compressor

end PackedMatrix
