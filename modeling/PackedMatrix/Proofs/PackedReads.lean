import PackedMatrix.Proofs.Cover
import PackedMatrix.Proofs.GroupReads

namespace PackedMatrix

namespace Packed

variable {packed : Packed} {cell : Nat → Nat → Cell}

/-- A read finds the cell of a place inside, and nothing outside. -/
theorem Covered.get?_eq (covered : packed.Covered)
    (shown : ∀ group ∈ packed.groups, group.Shows cell) (row col : Nat) :
    packed.get? row col =
      .ok (if row < packed.rows ∧ col < packed.cols then some (cell row col) else none) := by
  unfold get?
  by_cases inCol : col < packed.cols
  · obtain ⟨group, member, has, owner⟩ := covered.groupOf?_eq inCol
    simp only [owner]
    rw [(shown group member).get?_eq row col, covered.rows group member]
    simp [has, inCol]
  · rw [covered.groupOf?_eq_none (Nat.le_of_not_lt inCol)]
    simp [inCol]

/-- Writing groups one after the other puts the cells of each into its columns. -/
theorem foldlM_decompressInto {groups : List Group} {rows cols : Nat}
    (shown : ∀ group ∈ groups, group.Shows cell) (tall : ∀ group ∈ groups, group.rows = rows)
    (inside : ∀ group ∈ groups, ∀ col ∈ group.columns, col < cols)
    (distinct : (groups.flatMap Group.columns).Nodup) {buffer : Array Cell}
    (size : buffer.size = rows * cols)
    (blank : ∀ row col, row < rows → col ∈ groups.flatMap Group.columns →
      buffer[row * cols + col]? = some Cell.zero) :
    ∃ after, groups.foldlM (fun cells group => group.decompressInto cols cells) buffer =
        (.ok after : Except Fault (Array Cell)) ∧ after.size = rows * cols ∧
      ∀ row col, row < rows → col < cols → after[row * cols + col]? =
        if col ∈ groups.flatMap Group.columns then some (cell row col)
        else buffer[row * cols + col]? := by
  induction groups generalizing buffer with
  | nil => exact ⟨buffer, rfl, size, by simp⟩
  | cons group rest ih =>
    obtain ⟨_, others, apart⟩ := List.nodup_append.mp (List.flatMap_cons ▸ distinct)
    have within := inside group (by simp)
    have height := tall group (by simp)
    obtain ⟨next, written, kept, cells⟩ :=
      (shown group (by simp)).decompressInto within (by rw [size, height])
    rw [height] at cells
    have clear : ∀ row col, row < rows → col ∈ rest.flatMap Group.columns →
        next[row * cols + col]? = some Cell.zero := by
      intro row col inRow member
      obtain ⟨other, listed, here⟩ := List.mem_flatMap.mp member
      have inCol := inside other (List.mem_cons_of_mem _ listed) col here
      have absent : col ∉ group.columns := fun again => apart col again col member rfl
      rw [(cells row col inRow inCol).1 absent]
      exact blank row col inRow (by rw [List.flatMap_cons]; exact List.mem_append_right _ member)
    obtain ⟨after, run, size', last⟩ := ih
      (fun other member => shown other (List.mem_cons_of_mem _ member))
      (fun other member => tall other (List.mem_cons_of_mem _ member))
      (fun other member => inside other (List.mem_cons_of_mem _ member)) others
      (by rw [kept, size]) clear
    refine ⟨after, ?_, size', ?_⟩
    · rw [List.foldlM_cons, written]
      exact run
    · intro row col inRow inCol
      obtain ⟨foreign, own⟩ := cells row col inRow inCol
      rw [last row col inRow inCol, List.flatMap_cons]
      by_cases later : col ∈ rest.flatMap Group.columns
      · rw [if_pos later, if_pos (List.mem_append_right _ later)]
      · rw [if_neg later]
        by_cases here : col ∈ group.columns
        · rw [if_pos (List.mem_append_left _ here), own here
            (blank row col inRow (by rw [List.flatMap_cons]; exact List.mem_append_left _ here))]
        · have absent : col ∉ group.columns ++ rest.flatMap Group.columns := by
            simp only [List.mem_append, not_or]
            exact ⟨here, later⟩
          rw [if_neg absent, foreign here]

theorem Covered.decompress_eq (covered : packed.Covered)
    (shown : ∀ group ∈ packed.groups, group.Shows cell) :
    ∃ cells, packed.decompress = .ok ⟨packed.rows, packed.cols, .dense cells⟩ ∧
      cells.size = packed.rows * packed.cols ∧
      ∀ row col, row < packed.rows → col < packed.cols →
        cells.getD (row * packed.cols + col) Cell.zero = cell row col := by
  obtain ⟨after, run, size, last⟩ := foldlM_decompressInto shown covered.rows
    (fun group member col here => covered.column_lt member here)
    (covered.columns.nodup_iff.mpr List.nodup_range)
    (Array.size_replicate (v := Cell.zero)) (by
      intro row col inRow member
      have inCol : col < packed.cols := by simpa using covered.columns.mem_iff.mp member
      rw [Array.getElem?_replicate, if_pos (Block.position_lt inRow inCol)])
  refine ⟨after, ?_, size, ?_⟩
  · rw [decompress, run]
    rfl
  · intro row col inRow inCol
    have here : col ∈ packed.groups.flatMap Group.columns :=
      covered.columns.mem_iff.mpr (List.mem_range.mpr inCol)
    rw [Array.getD_eq_getD_getElem?, last row col inRow inCol, if_pos here, Option.getD_some]

end Packed

end PackedMatrix
