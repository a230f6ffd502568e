import PackedMatrix.Block
import PackedMatrix.Proofs.Increasing
import PackedMatrix.Proofs.Segments

namespace PackedMatrix

namespace SparseRows

/-- Pointers split all stored cells into rows of increasing columns below the width. -/
structure WellFormed (sparse : SparseRows) (rows cols : Nat) : Prop where
  pointerCount : sparse.rowPtr.size = rows + 1
  first : sparse.rowStart 0 = 0
  ordered : ∀ row < rows, sparse.rowStart row ≤ sparse.rowEnd row
  columnEnd : sparse.rowStart rows = sparse.colIdx.size
  valueEnd : sparse.rowStart rows = sparse.values.size
  increasing : ∀ row < rows, (sparse.rowColumns row).Pairwise (· < ·)
  inside : ∀ row < rows, ∀ col ∈ sparse.rowColumns row, col < cols

namespace WellFormed

variable {sparse : SparseRows} {rows cols row : Nat}

theorem rowStart_mono (valid : sparse.WellFormed rows cols) {first last : Nat}
    (order : first ≤ last) (bound : last ≤ rows) :
    sparse.rowStart first ≤ sparse.rowStart last := by
  induction last with
  | zero =>
    obtain rfl : first = 0 := by omega
    exact Nat.le_refl _
  | succ last ih =>
    rcases Nat.eq_or_lt_of_le order with rfl | less
    · exact Nat.le_refl _
    · exact Nat.le_trans (ih (by omega) (by omega)) (valid.ordered last (by omega))

theorem rowEnd_le (valid : sparse.WellFormed rows cols) (bound : row < rows) :
    sparse.rowEnd row ≤ sparse.colIdx.size ∧ sparse.rowEnd row ≤ sparse.values.size := by
  have upTo : sparse.rowEnd row ≤ sparse.rowStart rows := valid.rowStart_mono bound (Nat.le_refl _)
  rw [← valid.columnEnd, ← valid.valueEnd]
  exact ⟨upTo, upTo⟩

theorem length_rowColumns (valid : sparse.WellFormed rows cols) (bound : row < rows) :
    (sparse.rowColumns row).length = sparse.rowEnd row - sparse.rowStart row := by
  have := (valid.rowEnd_le bound).1
  simp only [rowColumns, List.length_map, Array.length_toList, Array.size_extract]
  omega

theorem getElem_rowColumns (valid : sparse.WellFormed rows cols) (bound : row < rows) (i : Nat)
    (inside : i < (sparse.rowColumns row).length) :
    (sparse.colIdx.getD (sparse.rowStart row + i) 0).toNat = (sparse.rowColumns row)[i] := by
  have length := valid.length_rowColumns bound
  have upTo := (valid.rowEnd_le bound).1
  have within : sparse.rowStart row + i < sparse.colIdx.size := by omega
  simp [rowColumns, Array.getD_eq_getD_getElem?, within]

/-- Nothing that a look at a cell needs lies outside the arrays. -/
theorem fetch_eq (valid : sparse.WellFormed rows cols) (bound : row < rows) (col : Nat) :
    sparse.fetch row col = .ok (sparse.cell row col) := by
  have count := valid.pointerCount
  have order := valid.ordered row bound
  obtain ⟨columnEnd, valueEnd⟩ := valid.rowEnd_le bound
  have first : sparse.rowPtr[row]? = some (sparse.rowStart row) := by
    simp [rowStart, Array.getD_eq_getD_getElem?, show row < sparse.rowPtr.size by omega]
  have last : sparse.rowPtr[row + 1]? = some (sparse.rowEnd row) := by
    simp [rowEnd, Array.getD_eq_getD_getElem?, show row + 1 < sparse.rowPtr.size by omega]
  rw [fetch, first, last]
  simp only [Fault.found, bind, Except.bind, order, columnEnd, valueEnd, and_self, ↓reduceIte, cell]
  split
  next i found =>
    have inside := Search.find?_lt found
    have within : sparse.rowStart row + i < sparse.values.size := by omega
    simp [Array.getD_eq_getD_getElem?, within]
  next => rfl

theorem map_fst_entries (valid : sparse.WellFormed rows cols) (bound : row < rows) :
    (sparse.entries row).map Prod.fst = sparse.rowColumns row := by
  have length := valid.length_rowColumns bound
  have upTo := (valid.rowEnd_le bound).2
  rw [entries, List.map_fst_zip]
  simp only [length, Array.length_toList, Array.size_extract]
  omega

theorem increasing_entries (valid : sparse.WellFormed rows cols) (bound : row < rows) :
    ((sparse.entries row).map Prod.fst).Pairwise (· < ·) := by
  rw [valid.map_fst_entries bound]
  exact valid.increasing row bound

theorem col_lt_of_mem (valid : sparse.WellFormed rows cols) (bound : row < rows)
    {entry : Nat × Cell} (member : entry ∈ sparse.entries row) : entry.1 < cols := by
  refine valid.inside row bound entry.1 ?_
  rw [← valid.map_fst_entries bound]
  exact List.mem_map_of_mem member

theorem position_eq (valid : sparse.WellFormed rows cols) (bound : row < rows) (target : Nat) :
    Search.find? (fun i => compare (sparse.colIdx.getD (sparse.rowStart row + i) 0).toNat target)
      (sparse.rowEnd row - sparse.rowStart row) =
        if target ∈ sparse.rowColumns row then some ((sparse.rowColumns row).idxOf target)
        else none :=
  Search.find?_increasing (valid.increasing row bound) (valid.length_rowColumns bound)
    (valid.getElem_rowColumns bound)

theorem cell_of_mem (valid : sparse.WellFormed rows cols) (narrow : cols ≤ maxIndex)
    (bound : row < rows) {col : Nat} {value : Cell} (member : (col, value) ∈ sparse.entries row) :
    sparse.cell row col = value := by
  have small : col < cols := valid.col_lt_of_mem bound member
  have word : col % UInt32.size = col :=
    Nat.mod_eq_of_lt (by rw [UInt32.size]; rw [maxIndex] at narrow; omega)
  obtain ⟨i, inside, here⟩ := List.mem_iff_getElem.mp member
  have length := valid.length_rowColumns bound
  have upTo := (valid.rowEnd_le bound).2
  have short : i < (sparse.rowColumns row).length := by
    rw [entries, List.length_zip] at inside
    omega
  simp only [entries, List.getElem_zip, Prod.mk.injEq] at here
  obtain ⟨key, stored⟩ := here
  have within : sparse.rowStart row + i < sparse.values.size := by omega
  have found : sparse.values.getD (sparse.rowStart row + i) Cell.zero = value := by
    rw [← stored]
    simp [Array.getD_eq_getD_getElem?, within]
  have listed : col ∈ sparse.rowColumns row := key ▸ List.getElem_mem _
  have place : (sparse.rowColumns row).idxOf col = i := by
    rw [← key]
    exact Increasing.idxOf_getElem (valid.increasing row bound) _
  simp only [cell, word, valid.position_eq bound, listed, ↓reduceIte, place, found]

theorem cell_of_not_mem (valid : sparse.WellFormed rows cols) (bound : row < rows) {col : Nat}
    (narrow : col ≤ maxIndex) (absent : col ∉ sparse.rowColumns row) :
    sparse.cell row col = Cell.zero := by
  have word : col % UInt32.size = col :=
    Nat.mod_eq_of_lt (by rw [UInt32.size]; rw [maxIndex] at narrow; omega)
  simp only [cell, word, valid.position_eq bound, absent, ↓reduceIte]

/-- The cell at a place is stored there, or nothing is and it is zero. -/
theorem mem_entries_or_zero (valid : sparse.WellFormed rows cols) (narrow : cols ≤ maxIndex)
    (bound : row < rows) {col : Nat} (small : col ≤ maxIndex) :
    (col, sparse.cell row col) ∈ sparse.entries row ∨
      (∀ value, (col, value) ∉ sparse.entries row) ∧ sparse.cell row col = Cell.zero := by
  by_cases known : ∃ value, (col, value) ∈ sparse.entries row
  · obtain ⟨value, stored⟩ := known
    rw [valid.cell_of_mem narrow bound stored]
    exact .inl stored
  · have absent : col ∉ sparse.rowColumns row := by
      rw [← valid.map_fst_entries bound]
      intro listed
      obtain ⟨⟨_, value⟩, stored, rfl⟩ := List.mem_map.mp listed
      exact known ⟨value, stored⟩
    exact .inr ⟨fun value stored => known ⟨value, stored⟩, valid.cell_of_not_mem bound small absent⟩

theorem mem_entries_of_nonzero (valid : sparse.WellFormed rows cols) (narrow : cols ≤ maxIndex)
    (bound : row < rows) {col : Nat} (small : col ≤ maxIndex)
    (nonzero : (sparse.cell row col).isZero = false) :
    (col, sparse.cell row col) ∈ sparse.entries row := by
  rcases valid.mem_entries_or_zero narrow bound small with stored | ⟨_, zero⟩
  · exact stored
  · rw [zero, Cell.isZero_iff.mpr rfl] at nonzero
    cases nonzero

end WellFormed

section OfEntries

variable {rows : List (List (Nat × Cell))}

theorem rowPtr_ofEntries (rows : List (List (Nat × Cell))) :
    (ofEntries rows).rowPtr = Segments.pointers rows := by
  have start : #[0] = Segments.pointers ([] : List (List (Nat × Cell))) := by
    simp [Segments.pointers]
  have whole := Segments.foldl_pointers [] rows
  rw [List.nil_append] at whole
  rw [← whole, ← start, ofEntries]

theorem rowStart_ofEntries (rows : List (List (Nat × Cell))) {row : Nat}
    (bound : row ≤ rows.length) :
    (ofEntries rows).rowStart row = Segments.offset rows row := by
  rw [rowStart, rowPtr_ofEntries, Array.getD_eq_getD_getElem?, Segments.getElem?_pointers bound]
  rfl

theorem flatMap_map_eq {α : Type} (pick : Nat × Cell → α) (rows : List (List (Nat × Cell))) :
    rows.flatMap (fun row => row.map pick) = (rows.map fun row => row.map pick).flatten :=
  List.flatMap_def

theorem offset_map {α : Type} (pick : Nat × Cell → α) (rows : List (List (Nat × Cell))) (i : Nat) :
    Segments.offset (rows.map fun row => row.map pick) i = Segments.offset rows i := by
  simp [Segments.offset, ← List.map_take, Function.comp_def]

theorem entries_ofEntries {row : Nat} (bound : row < rows.length)
    (small : ∀ entry ∈ rows[row], entry.1 < UInt32.size) :
    (ofEntries rows).entries row = rows[row] := by
  have first := rowStart_ofEntries rows (Nat.le_of_lt bound)
  have last : (ofEntries rows).rowEnd row = Segments.offset rows (row + 1) :=
    rowStart_ofEntries rows bound
  have part : ∀ {α : Type} (pick : Nat × Cell → α),
      ((rows.flatMap fun row => row.map pick).toArray.extract (Segments.offset rows row)
        (Segments.offset rows (row + 1))).toList = rows[row].map pick := by
    intro α pick
    have inside : row < (rows.map fun row => row.map pick).length := by simpa using bound
    have segment := Segments.extract_flatten inside
    rw [offset_map, offset_map] at segment
    rw [flatMap_map_eq, segment, List.getElem_map]
  have columns := part fun entry => UInt32.ofNat entry.1
  have cells := part Prod.snd
  have keys : (rows[row].map fun entry => UInt32.ofNat entry.1).map UInt32.toNat =
      rows[row].map Prod.fst := by
    rw [List.map_map]
    apply List.map_congr_left
    intro entry member
    exact UInt32.toNat_ofNat_of_lt' (small entry member)
  rw [entries, rowColumns, first, last]
  simp only [ofEntries] at columns cells ⊢
  rw [columns, cells, keys, ← List.unzip_fst, ← List.unzip_snd, List.zip_unzip]

/-- Rows of increasing columns below the width are well-formed. -/
theorem wellFormed_ofEntries (rows : List (List (Nat × Cell))) {cols : Nat}
    (narrow : cols ≤ maxIndex)
    (increasing : ∀ row ∈ rows, (row.map Prod.fst).Pairwise (· < ·))
    (inside : ∀ row ∈ rows, ∀ entry ∈ row, entry.1 < cols) :
    (ofEntries rows).WellFormed rows.length cols := by
  have words : ∀ row ∈ rows, ∀ entry ∈ row, entry.1 < UInt32.size := by
    intro row member entry stored
    have := inside row member entry stored
    rw [UInt32.size]
    rw [maxIndex] at narrow
    omega
  have size : ∀ {α : Type} (pick : Nat × Cell → α),
      (rows.flatMap fun row => row.map pick).length = rows.flatten.length := by
    intro α pick
    rw [flatMap_map_eq, ← Segments.offset_length, List.length_map, offset_map,
      Segments.offset_length]
  have columns : ∀ row (bound : row < rows.length),
      (ofEntries rows).rowColumns row = rows[row].map Prod.fst := by
    intro row bound
    have shown := entries_ofEntries bound (words _ (List.getElem_mem bound))
    rw [← shown, entries, List.map_fst_zip]
    have first := rowStart_ofEntries rows (Nat.le_of_lt bound)
    have last : (ofEntries rows).rowEnd row = Segments.offset rows (row + 1) :=
      rowStart_ofEntries rows bound
    simp only [rowColumns, List.length_map, Array.length_toList, Array.size_extract]
    simp [ofEntries, size]
  refine ⟨?_, ?_, ?_, ?_, ?_, ?_, ?_⟩
  · rw [rowPtr_ofEntries, Segments.size_pointers]
  · rw [rowStart_ofEntries rows (Nat.zero_le _), Segments.offset_zero]
  · intro row bound
    rw [rowStart_ofEntries rows (Nat.le_of_lt bound),
      show (ofEntries rows).rowEnd row = _ from rowStart_ofEntries rows bound]
    exact Segments.offset_mono rows (by omega)
  · rw [rowStart_ofEntries rows (Nat.le_refl _), Segments.offset_length]
    simp [ofEntries, size]
  · rw [rowStart_ofEntries rows (Nat.le_refl _), Segments.offset_length]
    simp [ofEntries, size]
  · intro row bound
    rw [columns row bound]
    exact increasing _ (List.getElem_mem bound)
  · intro row bound col member
    rw [columns row bound] at member
    obtain ⟨entry, stored, rfl⟩ := List.mem_map.mp member
    exact inside _ (List.getElem_mem bound) entry stored

end OfEntries

end SparseRows

end PackedMatrix
