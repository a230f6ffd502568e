import PackedMatrix.Proofs.BlockLayout

namespace PackedMatrix

namespace SparseRows

/-- No zero is stored. -/
def ZeroFree (sparse : SparseRows) : Prop := Cell.zero ∉ sparse.values

theorem zeroFree_iff {sparse : SparseRows} :
    sparse.ZeroFree ↔ ∀ value ∈ sparse.values, value.isZero = false := by
  rw [ZeroFree]
  constructor
  · intro free value member
    rw [← Bool.not_eq_true, Cell.isZero_iff]
    rintro rfl
    exact free member
  · intro each member
    cases each _ member

theorem zeroFree_ofEntries {rows : List (List (Nat × Cell))}
    (nonzero : ∀ row ∈ rows, ∀ entry ∈ row, entry.2.isZero = false) :
    (ofEntries rows).ZeroFree := by
  refine zeroFree_iff.mpr fun value member => ?_
  obtain ⟨row, listed, stored⟩ := List.mem_flatMap.mp (List.mem_toArray.mp member)
  obtain ⟨entry, here, rfl⟩ := List.mem_map.mp stored
  exact nonzero row listed entry here

theorem size_values_ofEntries (rows : List (List (Nat × Cell))) :
    (ofEntries rows).values.size = rows.flatten.length := by
  simp [ofEntries, List.length_flatMap, List.length_flatten]

theorem size_colIdx_ofEntries (rows : List (List (Nat × Cell))) :
    (ofEntries rows).colIdx.size = rows.flatten.length := by
  simp [ofEntries, List.length_flatMap, List.length_flatten]

theorem mem_values_of_mem_entries {sparse : SparseRows} {row col : Nat} {value : Cell}
    (member : (col, value) ∈ sparse.entries row) : value ∈ sparse.values := by
  have stored := (List.of_mem_zip member).2
  rw [Array.toList_extract, List.extract_eq_take_drop] at stored
  exact Array.mem_toList_iff.mp (List.mem_of_mem_drop (List.mem_of_mem_take stored))

namespace WellFormed

variable {sparse other : SparseRows} {rows cols row : Nat}

theorem length_entries (valid : sparse.WellFormed rows cols) (bound : row < rows) :
    (sparse.entries row).length = sparse.rowEnd row - sparse.rowStart row := by
  rw [← valid.length_rowColumns bound, ← valid.map_fst_entries bound, List.length_map]

/-- The pointers say where the entries of each row begin. -/
theorem offset_entries (valid : sparse.WellFormed rows cols) {count : Nat} (bound : count ≤ rows) :
    Segments.offset ((List.range rows).map sparse.entries) count = sparse.rowStart count := by
  induction count with
  | zero => rw [Segments.offset_zero, valid.first]
  | succ count ih =>
    have inside : count < ((List.range rows).map sparse.entries).length := by
      simpa using Nat.lt_of_succ_le bound
    have order := valid.ordered count (by omega)
    have next : sparse.rowStart (count + 1) = sparse.rowEnd count := rfl
    rw [Segments.offset_succ inside, ih (by omega), List.getElem_map, List.getElem_range,
      valid.length_entries (by omega), next]
    omega

theorem map_snd_entries (valid : sparse.WellFormed rows cols) (bound : row < rows) :
    (sparse.entries row).map Prod.snd =
      (sparse.values.extract (sparse.rowStart row) (sparse.rowEnd row)).toList := by
  have upTo := (valid.rowEnd_le bound).2
  rw [entries, List.map_snd_zip]
  rw [valid.length_rowColumns bound, Array.length_toList, Array.size_extract]
  omega

/-- What is stored for the entries of the rows, one row after the other, is all that is stored. -/
theorem flatMap_entries {α : Type} (valid : sparse.WellFormed rows cols) {stored : Array α}
    (full : sparse.rowStart rows = stored.size) {pick : Nat × Cell → α}
    (each : ∀ row, row < rows → (sparse.entries row).map pick =
      (stored.extract (sparse.rowStart row) (sparse.rowEnd row)).toList) :
    (((List.range rows).map sparse.entries).flatMap fun row => row.map pick).toArray = stored := by
  have joined := Segments.flatMap_extract stored valid.first valid.ordered
  rw [full, ← Array.length_toList, List.take_length] at joined
  rw [List.flatMap_map, List.flatMap_congr fun row member => each row (List.mem_range.mp member)]
  exact congrArg List.toArray joined

theorem ofEntries_entries (valid : sparse.WellFormed rows cols) :
    ofEntries ((List.range rows).map sparse.entries) = sparse := by
  have pointers : (ofEntries ((List.range rows).map sparse.entries)).rowPtr = sparse.rowPtr := by
    have count := valid.pointerCount
    rw [rowPtr_ofEntries]
    refine Array.ext (by simp [Segments.size_pointers, count]) fun place _ inside => ?_
    have bound : place ≤ rows := by omega
    have found := Segments.getElem?_pointers
      (show place ≤ ((List.range rows).map sparse.entries).length by simpa using bound)
    rw [← Option.some_inj, ← Array.getElem?_eq_getElem, found, valid.offset_entries bound, rowStart,
      Array.getD_eq_getD_getElem?, Array.getElem?_eq_getElem inside, Option.getD_some]
  have columns : (ofEntries ((List.range rows).map sparse.entries)).colIdx = sparse.colIdx := by
    refine valid.flatMap_entries valid.columnEnd fun row bound => ?_
    have keys := valid.map_fst_entries bound
    rw [← Function.comp_def UInt32.ofNat Prod.fst, ← List.map_map, keys, rowColumns, List.map_map]
    exact List.map_id'' (fun _ => UInt32.ofNat_toNat) _
  have cells : (ofEntries ((List.range rows).map sparse.entries)).values = sparse.values :=
    valid.flatMap_entries valid.valueEnd fun row bound => valid.map_snd_entries bound
  cases sparse
  exact congr (congrArg₂ SparseRows.mk pointers columns) cells

/-- A row that stores no zero lists its cells that are not zero. -/
theorem entries_eq_line (valid : sparse.WellFormed rows cols) (narrow : cols ≤ maxIndex)
    (free : sparse.ZeroFree) (bound : row < rows) :
    sparse.entries row = line (sparse.cell row) cols := by
  refine Line.eq_of_mem_iff (valid.increasing_entries bound) fun entry => ?_
  constructor
  · intro member
    refine ⟨valid.col_lt_of_mem bound member, (valid.cell_of_mem narrow bound member).symm, ?_⟩
    exact zeroFree_iff.mp free _ (mem_values_of_mem_entries member)
  · rintro ⟨inside, same, nonzero⟩
    rw [same] at nonzero
    have member := valid.mem_entries_of_nonzero narrow bound (by omega) nonzero
    rwa [← same] at member

/-- Rows without zeros that show the same cells are the same. -/
theorem eq_of_cells (valid : sparse.WellFormed rows cols) (valid' : other.WellFormed rows cols)
    (narrow : cols ≤ maxIndex) (free : sparse.ZeroFree) (free' : other.ZeroFree)
    (same : ∀ row col, row < rows → col < cols → sparse.cell row col = other.cell row col) :
    sparse = other := by
  have lists : (List.range rows).map sparse.entries = (List.range rows).map other.entries := by
    refine List.map_congr_left fun row member => ?_
    have bound := List.mem_range.mp member
    rw [valid.entries_eq_line narrow free bound, valid'.entries_eq_line narrow free' bound]
    exact Line.congr fun col inside => same row col bound inside
  rw [← valid.ofEntries_entries, lists, valid'.ofEntries_entries]

end WellFormed

end SparseRows

end PackedMatrix
