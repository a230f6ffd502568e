import PackedMatrix.Proofs.Grids

namespace PackedMatrix

namespace Block

namespace Triplet

/-- The place of a cell. -/
def place (t : Triplet) : Nat × Nat := (t.row, t.col)

/-- The matrix of some triplets: a place has the cell that is given for it, or zero. -/
def grid (rows cols : Nat) (triplets : List Triplet) : Grid where
  rows := rows
  cols := cols
  cell row col := ((triplets.find? (·.place == (row, col))).map value).getD Cell.zero

variable {rows cols : Nat} {triplets : List Triplet}

theorem le_iff {a b : Triplet} :
    le a b = true ↔ a.row < b.row ∨ (a.row = b.row ∧ a.col ≤ b.col) := by
  simp [le]

theorem samePlace_iff {a b : Triplet} : samePlace a b = true ↔ a.place = b.place := by
  simp [samePlace, place]

theorem le_of_mergeSort (triplets : List Triplet) :
    (triplets.mergeSort le).Pairwise fun a b => le a b = true := by
  refine List.pairwise_mergeSort ?_ ?_ triplets
  · intro a b c
    simp only [le_iff]
    omega
  · intro a b
    rw [Bool.or_eq_true]
    simp only [le_iff]
    omega

/-- In a list in order, equal places are next to each other. -/
theorem firstRepeated_eq_none_iff {sorted : List Triplet}
    (order : sorted.Pairwise fun a b => le a b = true) :
    firstRepeated sorted = none ↔ (sorted.map place).Nodup := by
  fun_induction firstRepeated sorted with
  | case1 a b rest same =>
    have equal := samePlace_iff.mp same
    simp [equal]
  | case2 a b rest differs ih =>
    obtain ⟨least, later⟩ := List.pairwise_cons.mp order
    rw [ih later, List.map_cons (l := b :: rest), List.nodup_cons]
    refine ⟨fun distinct => ⟨fun again => differs ?_, distinct⟩, fun both => both.2⟩
    obtain ⟨t, member, same⟩ := List.mem_map.mp again
    have low := le_iff.mp (least b (by simp))
    have high : le b t = true := by
      rcases List.mem_cons.mp member with rfl | behind
      · exact le_iff.mpr (by omega)
      · exact List.rel_of_pairwise_cons later behind
    rw [le_iff] at high
    simp only [place, Prod.mk.injEq] at same
    rw [samePlace_iff, place, place, Prod.mk.injEq]
    omega
  | case3 sorted short =>
    refine iff_of_true rfl ?_
    match sorted, short with
    | [], _ => simp
    | [a], _ => simp
    | a :: b :: rest, short => exact absurd rfl (short a b rest)

/-- Triplets at different places come in a strict order. -/
theorem lt_of_mergeSort (distinct : (triplets.map place).Nodup) :
    (triplets.mergeSort le).Pairwise
      fun a b => a.row < b.row ∨ (a.row = b.row ∧ a.col < b.col) := by
  have perm := (List.mergeSort_perm triplets le).map place
  have apart := List.pairwise_map.mp (perm.nodup_iff.mpr distinct)
  refine ((le_of_mergeSort triplets).and apart).imp fun {a b} both => ?_
  have order := le_iff.mp both.1
  have differs : ¬ (a.row = b.row ∧ a.col = b.col) := fun same =>
    both.2 (Prod.ext same.1 same.2)
  omega

theorem cell_grid_of_mem (distinct : (triplets.map place).Nodup) {t : Triplet}
    (member : t ∈ triplets) : (grid rows cols triplets).cell t.row t.col = t.value := by
  have found : triplets.find? (·.place == (t.row, t.col)) = some t := by
    cases first : triplets.find? (·.place == (t.row, t.col)) with
    | none => exact absurd (beq_self_eq_true t.place) (List.find?_eq_none.mp first t member)
    | some other =>
      have same : other.place = t.place := by simpa [place] using List.find?_some first
      rw [List.inj_on_of_nodup_map distinct (List.mem_of_find?_eq_some first) member same]
  simp only [grid, found, Option.map_some, Option.getD_some]

theorem cell_grid_of_absent {row col : Nat} (absent : ∀ t ∈ triplets, t.place ≠ (row, col)) :
    (grid rows cols triplets).cell row col = Cell.zero := by
  have found : triplets.find? (·.place == (row, col)) = none := by simpa using absent
  simp only [grid, found, Option.map_none, Option.getD_none]

theorem mem_of_nonzero (distinct : (triplets.map place).Nodup) {row col : Nat}
    (nonzero : ((grid rows cols triplets).cell row col).isZero = false) :
    ⟨row, col, (grid rows cols triplets).cell row col⟩ ∈ triplets := by
  by_cases given : ∃ t ∈ triplets, t.place = (row, col)
  · obtain ⟨t, member, here⟩ := given
    obtain ⟨rfl, rfl⟩ := Prod.mk.inj here
    rwa [cell_grid_of_mem distinct member]
  · rw [cell_grid_of_absent fun t member here => given ⟨t, member, here⟩,
      Cell.isZero_iff.mpr rfl] at nonzero
    cases nonzero

theorem grid_of_perm {other : List Triplet} (distinct : (triplets.map place).Nodup)
    (perm : other.Perm triplets) : grid rows cols other = grid rows cols triplets := by
  have distinct' : (other.map place).Nodup := (perm.map place).nodup_iff.mpr distinct
  have same : ∀ row col, (grid rows cols other).cell row col =
      (grid rows cols triplets).cell row col := by
    intro row col
    by_cases given : ∃ t ∈ triplets, t.place = (row, col)
    · obtain ⟨t, member, here⟩ := given
      obtain ⟨rfl, rfl⟩ := Prod.mk.inj here
      rw [cell_grid_of_mem distinct member, cell_grid_of_mem distinct' (perm.mem_iff.mpr member)]
    · have absent : ∀ t ∈ triplets, t.place ≠ (row, col) :=
        fun t member here => given ⟨t, member, here⟩
      rw [cell_grid_of_absent absent,
        cell_grid_of_absent fun t member => absent t (perm.mem_iff.mp member)]
  exact congrArg (Grid.mk rows cols) (funext fun row => funext fun col => same row col)

/-- Sorted triplets without zeros, shared out by row, list the cells of a row that are not zero. -/
theorem line_eq (distinct : (triplets.map place).Nodup)
    (inside : ∀ t ∈ triplets, t.row < rows ∧ t.col < cols) (row : Nat) :
    (((triplets.mergeSort le).filter (!·.value.isZero)).filter (·.row == row)).map
      (fun t => (t.col, t.value)) = line ((grid rows cols triplets).cell row) cols := by
  apply Line.eq_of_mem_iff
  · rw [List.map_map, List.pairwise_map]
    refine (((lt_of_mergeSort distinct).filter _).filter _).imp_of_mem
      fun {a b} first second order => ?_
    have here : a.row = row := by simpa using (List.mem_filter.mp first).2
    have there : b.row = row := by simpa using (List.mem_filter.mp second).2
    simp only [Function.comp_apply]
    omega
  · intro entry
    simp only [List.mem_map, List.mem_filter, List.mem_mergeSort, Bool.not_eq_true', beq_iff_eq]
    constructor
    · rintro ⟨t, ⟨⟨member, nonzero⟩, rfl⟩, rfl⟩
      exact ⟨(inside t member).2, (cell_grid_of_mem distinct member).symm, nonzero⟩
    · rintro ⟨_, same, nonzero⟩
      rw [same] at nonzero
      exact ⟨_, ⟨⟨mem_of_nonzero distinct nonzero, nonzero⟩, rfl⟩, by rw [← same]⟩

end Triplet

variable {rows cols : Nat} {triplets : List Triplet}

/-- Sorted triplets, with the starts of their rows, are the rows that share them out. -/
theorem ofEntries_of_ordered {sorted : List Triplet} (ordered : sorted.Pairwise (·.row ≤ ·.row))
    (inside : ∀ t ∈ sorted, t.row < rows) :
    SparseRows.ofEntries ((List.range rows).map fun row =>
        (sorted.filter (·.row == row)).map fun t => (t.col, t.value)) =
      ⟨CountingSort.starts rows (sorted.map Triplet.row),
        (sorted.map fun t => UInt32.ofNat t.col).toArray,
        (sorted.map Triplet.value).toArray⟩ := by
  have joined := CountingSort.flatMap_filter_of_ordered ordered inside
  have cells : ∀ {α : Type} (pick : Nat × Cell → α),
      ((List.range rows).map fun row => (sorted.filter (·.row == row)).map
        fun t => (t.col, t.value)).flatMap (fun row => row.map pick) =
          sorted.map fun t => pick (t.col, t.value) := by
    intro α pick
    have spread := congrArg (List.map fun t => pick (t.col, t.value)) joined
    rw [List.map_flatMap] at spread
    simpa only [List.flatMap_map, List.map_map, Function.comp_def] using spread
  have counts : ∀ row < rows, ((sorted.filter (·.row == row)).map
      fun t => (t.col, t.value)).length = (sorted.map Triplet.row).countP (· == row) := by
    intro row _
    rw [List.length_map, CountingSort.countP_map_key]
  rw [CountingSort.starts_eq_pointers _ rows counts, ← SparseRows.rowPtr_ofEntries]
  simp only [SparseRows.ofEntries, cells]

/-- Triplets at different places inside make up the sparse block of their matrix. -/
theorem ofTriplets_eq (narrow : cols ≤ maxIndex)
    (inside : ∀ t ∈ triplets, t.row < rows ∧ t.col < cols)
    (distinct : (triplets.map Triplet.place).Nodup) :
    ofTriplets rows cols triplets = .ok (Triplet.grid rows cols triplets).block.toSparse := by
  have within : triplets.find? (fun t => !(t.row < rows && t.col < cols)) = none := by
    simpa using inside
  have limit : ¬ cols > maxIndex := by omega
  have single : Triplet.firstRepeated (triplets.mergeSort Triplet.le) = none := by
    rw [Triplet.firstRepeated_eq_none_iff (Triplet.le_of_mergeSort triplets)]
    exact ((List.mergeSort_perm triplets Triplet.le).map Triplet.place).nodup_iff.mpr distinct
  have lines : (Triplet.grid rows cols triplets).block.rowLines = (List.range rows).map fun row =>
      (((triplets.mergeSort Triplet.le).filter (!·.value.isZero)).filter (·.row == row)).map
        fun t => (t.col, t.value) := by
    rw [rowLines_block]
    exact List.map_congr_left fun row _ => (Triplet.line_eq distinct inside row).symm
  have ordered := (Triplet.lt_of_mergeSort distinct).filter (!·.value.isZero)
  have byRow := ordered.imp fun {a b} order => show a.row ≤ b.row by omega
  have inRow : ∀ t ∈ (triplets.mergeSort Triplet.le).filter (!·.value.isZero), t.row < rows :=
    fun t member => (inside t (List.mem_mergeSort.mp (List.mem_filter.mp member).1)).1
  rw [toSparse_eq_ofEntries rfl (Grid.size_cells _), lines, ofEntries_of_ordered byRow inRow]
  simp only [ofTriplets, within, if_neg limit, single]
  rfl

/-- Triplets that make up a block lie inside, at different places. -/
theorem places_of_ofTriplets {block : Block} (h : ofTriplets rows cols triplets = .ok block) :
    cols ≤ maxIndex ∧ (∀ t ∈ triplets, t.row < rows ∧ t.col < cols) ∧
      (triplets.map Triplet.place).Nodup := by
  unfold ofTriplets at h
  split at h
  next => cases h
  next within =>
    split at h
    next => cases h
    next limit =>
      simp only at h
      split at h
      next => cases h
      next single =>
        refine ⟨Nat.le_of_not_lt limit, by simpa using within, ?_⟩
        rw [Triplet.firstRepeated_eq_none_iff (Triplet.le_of_mergeSort triplets)] at single
        exact ((List.mergeSort_perm triplets Triplet.le).map Triplet.place).nodup_iff.mp single

theorem holds_of_ofTriplets {block : Block} (h : ofTriplets rows cols triplets = .ok block) :
    block.Holds (Triplet.grid rows cols triplets) ∧ block.isSparse = true := by
  obtain ⟨narrow, inside, distinct⟩ := places_of_ofTriplets h
  rw [ofTriplets_eq narrow inside distinct] at h
  cases h
  refine ⟨Holds.toSparse_block _ narrow, ?_⟩
  rw [toSparse_eq_ofEntries rfl (Grid.size_cells _)]
  rfl

/-- Triplets make up a block exactly if all places lie inside and none is given twice. The block
shows the given cells and zeros elsewhere; a dense copy of it, made sparse again, is the same block,
and so is the block of the same triplets in any other order. -/
theorem ofTriplets_exact (narrow : cols ≤ maxIndex) (triplets : List Triplet) :
    ((∃ block, ofTriplets rows cols triplets = .ok block) ↔
      (∀ t ∈ triplets, t.row < rows ∧ t.col < cols) ∧ (triplets.map Triplet.place).Nodup) ∧
    ∀ block, ofTriplets rows cols triplets = .ok block →
      block.validate = .ok () ∧ block.isSparse = true ∧
      (∀ t ∈ triplets, block.get? t.row t.col = some t.value) ∧
      (∀ row col, row < rows → col < cols → (∀ t ∈ triplets, t.place ≠ (row, col)) →
        block.get? row col = some Cell.zero) ∧
      (∃ cells, dense rows cols cells = .ok block.toDense ∧ ∀ row col, row < rows → col < cols →
        cells[row * cols + col]? = block.get? row col) ∧
      block.toDense.toSparse = block ∧
      ∀ other, other.Perm triplets → ofTriplets rows cols other = .ok block := by
  refine ⟨⟨?_, fun both => ⟨_, ofTriplets_eq narrow both.1 both.2⟩⟩, ?_⟩
  · rintro ⟨block, made⟩
    exact (places_of_ofTriplets made).2
  · intro block made
    obtain ⟨_, inside, distinct⟩ := places_of_ofTriplets made
    obtain ⟨holds, sparse⟩ := holds_of_ofTriplets made
    have read : ∀ row col, row < rows → col < cols →
        block.get? row col = some ((Triplet.grid rows cols triplets).cell row col) := by
      intro row col inRow inCol
      rw [holds.get?_eq]
      exact if_pos ⟨inRow, inCol⟩
    refine ⟨holds.fits.validate, sparse, ?_, ?_, ?_, ?_, ?_⟩
    · intro t member
      obtain ⟨inRow, inCol⟩ := inside t member
      rw [read _ _ inRow inCol, Triplet.cell_grid_of_mem distinct member]
    · intro row col inRow inCol absent
      rw [read row col inRow inCol, Triplet.cell_grid_of_absent absent]
    · refine ⟨(Triplet.grid rows cols triplets).cells.toArray, ?_, ?_⟩
      · rw [holds.toDense_eq narrow]
        exact if_pos (Grid.size_cells _)
      · intro row col inRow inCol
        rw [read row col inRow inCol, List.getElem?_toArray]
        exact Grid.getElem?_cells _ inRow inCol
    · rw [holds.toDense_eq narrow]
      exact (holds.eq_toSparse narrow sparse).symm
    · intro other perm
      have inside' : ∀ t ∈ other, t.row < rows ∧ t.col < cols :=
        fun t member => inside t (perm.mem_iff.mp member)
      have distinct' : (other.map Triplet.place).Nodup :=
        (perm.map Triplet.place).nodup_iff.mpr distinct
      rw [ofTriplets_eq narrow inside' distinct', Triplet.grid_of_perm distinct perm,
        ← ofTriplets_eq narrow inside distinct, made]

/-- A negative zero and a number in the second row, and a zero in the first that is given last. -/
def zeroLast : List Triplet := [⟨1, 2, ⟨0x8000000000000000⟩⟩, ⟨1, 0, ⟨5⟩⟩, ⟨0, 1, ⟨0⟩⟩]

theorem ofTriplets_exact_zeroLast : ∃ block, ofTriplets 2 3 zeroLast = .ok block ∧
    block.validate = .ok () ∧ block.get? 1 2 = some ⟨0x8000000000000000⟩ ∧
      block.get? 0 2 = some Cell.zero ∧ block.toDense.toSparse = block ∧
      ofTriplets 2 3 zeroLast.reverse = .ok block ∧
      ¬ ∃ other, ofTriplets 2 3 (⟨0, 1, ⟨0⟩⟩ :: zeroLast) = .ok other := by
  have narrow : 3 ≤ maxIndex := by decide
  obtain ⟨block, made⟩ : ∃ block, ofTriplets 2 3 zeroLast = .ok block :=
    (ofTriplets_exact narrow zeroLast).1.mpr (by decide)
  obtain ⟨valid, _, given, absent, _, again, others⟩ :=
    (ofTriplets_exact narrow zeroLast).2 block made
  refine ⟨block, made, valid, given ⟨1, 2, _⟩ (by decide),
    absent 0 2 (by decide) (by decide) (by decide), again,
    others _ (List.reverse_perm zeroLast), ?_⟩
  rw [(ofTriplets_exact narrow _).1]
  decide

end Block

end PackedMatrix
