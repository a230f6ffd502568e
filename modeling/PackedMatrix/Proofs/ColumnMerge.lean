import PackedMatrix.Proofs.Selection

namespace PackedMatrix

namespace Reader

theorem mergeFrom_of_none {cursors : Cursors} (ended : cursors.nextRow? = none)
    (buffer : RowBuffer) : mergeFrom cursors buffer = (none, merge cursors buffer) := by
  rw [mergeFrom]
  split
  next => rfl
  next row found => simp [ended] at found

/-- At the next row, its cells are read into a cleared buffer, and zeros are passed over. -/
theorem mergeFrom_of_some {cursors : Cursors} {row : Nat} (found : cursors.nextRow? = some row)
    (buffer : RowBuffer) : mergeFrom cursors buffer =
      if isZeroTuple (buffer.clear.put (cursors.writes row)).toList then
        mergeFrom (cursors.advance row) (buffer.clear.put (cursors.writes row))
      else (some ⟨row, (buffer.clear.put (cursors.writes row)).toList⟩,
        merge (cursors.advance row) (buffer.clear.put (cursors.writes row))) := by
  rw [mergeFrom]
  split
  next ended => simp [found] at ended
  next place again =>
    obtain rfl : row = place := Option.some.inj (found.symm.trans again)
    rfl

end Reader

namespace Cursors

/-- The entries of a column from a row on. -/
def tail (entries : List (Nat × Cell)) (row : Nat) : List (Nat × Cell) :=
  entries.filter (row ≤ ·.1)

theorem tail_of_le {entries : List (Nat × Cell)} {row : Nat}
    (behind : ∀ entry ∈ entries, row ≤ entry.1) : tail entries row = entries := by
  rw [tail, List.filter_eq_self]
  intro entry member
  exact decide_eq_true (behind entry member)

theorem tail_cons_of_lt {first : Nat × Cell} {rest : List (Nat × Cell)} {row : Nat}
    (before : first.1 < row) : tail (first :: rest) row = tail rest row := by
  rw [tail, List.filter_cons_of_neg (by simpa using before)]
  rfl

/-- Rows without entries in a column may be skipped. -/
theorem tail_skip {entries : List (Nat × Cell)} {row next : Nat} (order : row ≤ next)
    (none_before : ∀ entry ∈ entries, row ≤ entry.1 → next ≤ entry.1) :
    tail entries row = tail entries next := by
  apply List.filter_congr
  intro entry member
  have := none_before entry member
  simp only [decide_eq_decide]
  omega

/-- What a column has in a row is taken, and the entries behind that row are left. -/
theorem take_tail {entries : List (Nat × Cell)} (sorted : (entries.map Prod.fst).Pairwise (· < ·))
    (row : Nat) : take row (tail entries row) = (entries.lookup row, tail entries (row + 1)) := by
  induction entries with
  | nil => rfl
  | cons first rest ih =>
    rw [List.map_cons, List.pairwise_cons] at sorted
    have above : ∀ entry ∈ rest, first.1 < entry.1 :=
      fun entry member => sorted.1 entry.1 (List.mem_map_of_mem member)
    rcases Nat.lt_trichotomy first.1 row with less | same | more
    · have differs : (row == first.1) = false := by simpa using Nat.ne_of_gt less
      rw [tail_cons_of_lt less, tail_cons_of_lt (Nat.lt_succ_of_lt less), ih sorted.2,
        List.lookup_cons, differs]
    · subst same
      have kept : tail (first :: rest) first.1 = first :: rest := by
        apply tail_of_le
        intro entry member
        rcases List.mem_cons.mp member with rfl | member
        · exact Nat.le_refl _
        · exact Nat.le_of_lt (above entry member)
      have found : (first :: rest).lookup first.1 = some first.2 := by
        rw [List.lookup_cons, beq_self_eq_true]
      rw [kept, tail_cons_of_lt (Nat.lt_succ_self _), tail_of_le above, found, take, if_pos rfl]
    · have behind : ∀ entry ∈ first :: rest, row + 1 ≤ entry.1 := by
        intro entry member
        rcases List.mem_cons.mp member with rfl | member
        · exact more
        · exact Nat.lt_trans more (above entry member)
      have kept : tail (first :: rest) row = first :: rest :=
        tail_of_le fun entry member => Nat.le_of_lt (behind entry member)
      have absent : (first :: rest).lookup row = none := by
        refine List.lookup_eq_none_iff.mpr fun entry member => ?_
        have := behind entry member
        simp only [bne_iff_ne, ne_eq]
        omega
      rw [kept, tail_of_le behind, absent, take, if_neg (Nat.ne_of_gt more)]

theorem exists_head_tail {entries : List (Nat × Cell)} {row : Nat}
    (sorted : (entries.map Prod.fst).Pairwise (· < ·)) {entry : Nat × Cell}
    (member : entry ∈ entries) (after : row ≤ entry.1) :
    ∃ first, (tail entries row).head? = some first ∧ first.1 ≤ entry.1 := by
  have kept : entry ∈ tail entries row := List.mem_filter.mpr ⟨member, by simpa using after⟩
  have order : (tail entries row).Pairwise fun a b => a.1 < b.1 :=
    (List.pairwise_map.mp sorted).sublist List.filter_sublist
  cases found : tail entries row with
  | nil => simp [found] at kept
  | cons first rest =>
    rw [found] at kept order
    refine ⟨first, rfl, ?_⟩
    rcases List.mem_cons.mp kept with rfl | member
    · exact Nat.le_refl _
    · exact Nat.le_of_lt ((List.pairwise_cons.mp order).1 entry member)

theorem nextRow?_tails (lists : List (List (Nat × Cell))) (row : Nat)
    (sorted : ∀ entries ∈ lists, (entries.map Prod.fst).Pairwise (· < ·)) :
    match nextRow? (lists.map (tail · row)) with
    | none => ∀ entries ∈ lists, ∀ entry ∈ entries, entry.1 < row
    | some next => (∃ entries ∈ lists, ∃ entry ∈ entries, entry.1 = next) ∧ row ≤ next ∧
        ∀ entries ∈ lists, ∀ entry ∈ entries, row ≤ entry.1 → next ≤ entry.1 := by
  have listed : ∀ entries ∈ lists, ∀ first, (tail entries row).head? = some first →
      first.1 ∈ (lists.map (tail · row)).filterMap fun column => column.head?.map Prod.fst := by
    intro entries member first head
    refine List.mem_filterMap.mpr ⟨tail entries row,
      List.mem_map_of_mem (f := (tail · row)) member, ?_⟩
    simp [head]
  cases found : nextRow? (lists.map (tail · row)) with
  | none =>
    intro entries member entry stored
    by_contra after
    obtain ⟨first, head, _⟩ := exists_head_tail (sorted entries member) stored
      (Nat.le_of_not_lt after)
    have here := listed entries member first head
    rw [List.min?_eq_none_iff.mp found] at here
    simp at here
  | some next =>
    obtain ⟨occurs, least⟩ := List.min?_eq_some_iff.mp found
    obtain ⟨column, chosen, head⟩ := List.mem_filterMap.mp occurs
    obtain ⟨entries, member, rfl⟩ := List.mem_map.mp chosen
    obtain ⟨first, start, rfl⟩ := Option.map_eq_some_iff.mp head
    have kept := List.mem_filter.mp (List.mem_of_head? start)
    refine ⟨⟨entries, member, first, kept.1, rfl⟩, by simpa using kept.2, ?_⟩
    intro other inside entry stored after
    obtain ⟨front, begins, below⟩ := exists_head_tail (sorted other inside) stored after
    exact Nat.le_trans (least front.1 (listed other inside front begins)) below

end Cursors

namespace Reader

section Merge

variable {source : Source} {columns : List Nat} {sparse : SparseRows}
variable (valid : source.block.WellFormed) (data : source.block.data = .sparse sparse)
  (transposed : source.transposed = true) (inside : ∀ col ∈ columns, col < source.cols)

/-- The chosen columns, each from a row on. -/
def tails (sparse : SparseRows) (columns : List Nat) (row : Nat) : Cursors :=
  columns.map fun col => Cursors.tail (sparse.entries col) row

include data transposed in
/-- A column shows what it lists for a row, and zero where it lists nothing. -/
theorem storedTuple_eq_lookup (row : Nat) : source.storedTuple columns row =
    columns.map fun col => ((sparse.entries col).lookup row).getD Cell.zero := by
  refine List.map_congr_left fun col _ => ?_
  simp [Source.stored, transposed, Block.stored, data, SparseRows.stored]

include valid data transposed inside

theorem increasing_column {col : Nat} (member : col ∈ columns) :
    ((sparse.entries col).map Prod.fst).Pairwise (· < ·) := by
  have sound := (Block.wellFormed_sparse data).mp valid
  exact sound.increasing_entries (by simpa [Source.cols, transposed] using inside col member)

theorem row_lt_of_mem_column {col : Nat} (member : col ∈ columns) {entry : Nat × Cell}
    (listed : entry ∈ sparse.entries col) : entry.1 < source.rows := by
  have sound := (Block.wellFormed_sparse data).mp valid
  have bound : col < source.block.rows := by
    simpa [Source.cols, transposed] using inside col member
  simpa [Source.rows, transposed] using sound.col_lt_of_mem bound listed

theorem isZeroTuple_of_absent {row : Nat}
    (absent : ∀ col ∈ columns, ∀ value, (row, value) ∉ sparse.entries col) :
    isZeroTuple (source.storedTuple columns row) = true := by
  rw [storedTuple_eq_lookup data transposed, isZeroTuple, List.all_map, List.all_eq_true]
  intro col member
  have sorted := increasing_column valid data transposed inside member
  have missing : (sparse.entries col).lookup row = none :=
    Option.eq_none_iff_forall_ne_some.mpr fun value found =>
      absent col member value ((lookup_eq_some_iff_mem sorted).mp found)
  simp [missing, Cell.isZero_iff]

/-- At the next row, each column gives what it lists and moves past that row. -/
theorem take_tails {row next : Nat} (order : row ≤ next)
    (above : ∀ col ∈ columns, ∀ entry ∈ sparse.entries col, row ≤ entry.1 → next ≤ entry.1)
    {col : Nat} (member : col ∈ columns) :
    Cursors.take next (Cursors.tail (sparse.entries col) row) =
      ((sparse.entries col).lookup next, Cursors.tail (sparse.entries col) (next + 1)) := by
  rw [Cursors.tail_skip order (above col member),
    Cursors.take_tail (increasing_column valid data transposed inside member)]

theorem advance_tails {row next : Nat} (order : row ≤ next)
    (above : ∀ col ∈ columns, ∀ entry ∈ sparse.entries col, row ≤ entry.1 → next ≤ entry.1) :
    Cursors.advance next (tails sparse columns row) = tails sparse columns (next + 1) := by
  rw [Cursors.advance, tails, tails, List.map_map]
  exact List.map_congr_left fun col member =>
    congrArg Prod.snd (take_tails valid data transposed inside order above member)

theorem mem_writes_tails {row next : Nat} (order : row ≤ next)
    (above : ∀ col ∈ columns, ∀ entry ∈ sparse.entries col, row ≤ entry.1 → next ≤ entry.1)
    (write : Nat × Cell) : write ∈ Cursors.writes next (tails sparse columns row) ↔
      ∃ place, ∃ (_ : place < columns.length),
        write.1 = place ∧ (sparse.entries columns[place]).lookup next = some write.2 := by
  have taken : ∀ col ∈ columns, (Cursors.take next (Cursors.tail (sparse.entries col) row)).1 =
      (sparse.entries col).lookup next := fun col member =>
    congrArg Prod.fst (take_tails valid data transposed inside order above member)
  rw [Cursors.writes, tails, List.zipIdx_map, List.filterMap_map, List.mem_filterMap]
  simp only [Function.comp_apply, Prod.map_fst, Prod.map_snd, id_eq, Option.map_eq_some_iff]
  constructor
  · rintro ⟨⟨col, place⟩, chosen, cell, shown, rfl⟩
    obtain ⟨within, here⟩ := List.mem_zipIdx' chosen
    simp only [here, taken _ (List.getElem_mem within)] at shown
    exact ⟨place, within, rfl, shown⟩
  · rintro ⟨place, within, here, shown⟩
    refine ⟨(columns[place], place), List.mem_zipIdx_iff_getElem?.mpr (by simp [within]), write.2,
      (taken _ (List.getElem_mem within)).trans shown, Prod.ext here.symm rfl⟩

/-- At the next row, the buffer holds the tuple of that row and nothing of an earlier one. -/
theorem toList_put_writes_tails {row next : Nat} (order : row ≤ next)
    (above : ∀ col ∈ columns, ∀ entry ∈ sparse.entries col, row ≤ entry.1 → next ≤ entry.1)
    {buffer : RowBuffer} (size : buffer.size = columns.length) :
    (buffer.clear.put (Cursors.writes next (tails sparse columns row))).toList =
      source.storedTuple columns next := by
  rw [storedTuple_eq_lookup data transposed]
  exact RowBuffer.toList_put_clear (fun col => (sparse.entries col).lookup next)
    (mem_writes_tails valid data transposed inside order above) size

/-- The columns go on at the next row that one of them stores. -/
theorem nextRow?_columns (row : Nat) :
    match Cursors.nextRow? (tails sparse columns row) with
    | none => TupleRow.nonzeroFrom (source.storedTuple columns) source.rows row = []
    | some next => row ≤ next ∧ next < source.rows ∧
        TupleRow.nonzeroFrom (source.storedTuple columns) source.rows row =
          TupleRow.nonzeroFrom (source.storedTuple columns) source.rows next ∧
        ∀ col ∈ columns, ∀ entry ∈ sparse.entries col, row ≤ entry.1 → next ≤ entry.1 := by
  have lists : tails sparse columns row =
      (columns.map sparse.entries).map (Cursors.tail · row) := by
    simp [tails, Function.comp_def]
  have least := Cursors.nextRow?_tails (columns.map sparse.entries) row (by
    intro entries member
    obtain ⟨col, chosen, rfl⟩ := List.mem_map.mp member
    exact increasing_column valid data transposed inside chosen)
  rw [← lists] at least
  cases found : Cursors.nextRow? (tails sparse columns row) with
  | none =>
    rw [found] at least
    rcases Nat.le_total source.rows row with outside | order
    · exact TupleRow.nonzeroFrom_of_le outside
    · rw [TupleRow.nonzeroFrom_skip order (Nat.le_refl _),
        TupleRow.nonzeroFrom_of_le (Nat.le_refl _)]
      intro place after before
      refine isZeroTuple_of_absent valid data transposed inside ?_
      intro col member value stored
      have := least (sparse.entries col) (List.mem_map_of_mem member) _ stored
      omega
  | some next =>
    rw [found] at least
    obtain ⟨⟨entries, chosen, entry, stored, rfl⟩, order, above⟩ := least
    obtain ⟨col, member, rfl⟩ := List.mem_map.mp chosen
    have within := row_lt_of_mem_column valid data transposed inside member stored
    refine ⟨order, within, ?_, fun other listed => above _ (List.mem_map_of_mem listed)⟩
    refine TupleRow.nonzeroFrom_skip order (Nat.le_of_lt within) ?_
    intro place after before
    refine isZeroTuple_of_absent valid data transposed inside ?_
    intro other listed value there
    have := above (sparse.entries other) (List.mem_map_of_mem listed) _ there after
    omega

/-- The columns of a transposed sparse block, read at the next row that one of them stores. -/
theorem yields_merge (row : Nat) (buffer : RowBuffer) (size : buffer.size = columns.length) :
    (merge (tails sparse columns row) buffer).Yields
      (TupleRow.nonzeroFrom (source.storedTuple columns) source.rows row) := by
  have step := nextRow?_columns valid data transposed inside row
  cases found : Cursors.nextRow? (tails sparse columns row) with
  | none =>
    rw [found] at step
    rw [step, Yields, next, mergeFrom_of_none found]
  | some after =>
    rw [found] at step
    obtain ⟨order, within, skipped, above⟩ := step
    have tuple := toList_put_writes_tails valid data transposed inside order above size
    have advance := advance_tails valid data transposed inside order above
    have moved := mergeFrom_of_some found buffer
    rw [tuple, advance] at moved
    have more := yields_merge (after + 1)
      (buffer.clear.put (Cursors.writes after (tails sparse columns row))) (by simp [size])
    rw [skipped]
    by_cases zero : isZeroTuple (source.storedTuple columns after) = true
    · rw [if_pos zero] at moved
      rw [TupleRow.nonzeroFrom_of_zero within zero]
      exact more.of_next_eq (by rw [next, next, moved])
    · rw [if_neg zero] at moved
      rw [TupleRow.nonzeroFrom_of_nonzero within (by simpa using zero), Yields, next, moved]
      exact ⟨rfl, more⟩
termination_by source.rows - row

end Merge

/-- However a source is stored, a reader in front of it shows its rows that are not zero. -/
theorem yields_start {source : Source} {columns : List Nat} (valid : source.block.WellFormed)
    (sorted : columns.Pairwise (· < ·)) (inside : ∀ col ∈ columns, col < source.cols) :
    (start source columns).Yields
      (TupleRow.nonzeroFrom (source.storedTuple columns) source.rows 0) := by
  have size : (Array.replicate columns.length Cell.zero).size = columns.length :=
    Array.size_replicate
  cases data : source.block.data with
  | dense cells =>
    have scanned : source.block.isSparse = false := by simp [Block.isSparse, data]
    have reads := yields_scan valid sorted (Or.inl scanned) 0 _ size
    simpa only [start, data] using reads
  | sparse sparse =>
    cases turned : source.transposed with
    | false =>
      have reads := yields_scan valid sorted (Or.inr turned) 0 _ size
      simpa only [start, data, turned] using reads
    | true =>
      have merged := yields_merge valid data turned inside 0 _ size
      have whole : ∀ col, Cursors.tail (sparse.entries col) 0 = sparse.entries col :=
        fun col => Cursors.tail_of_le fun entry _ => Nat.zero_le _
      simp only [tails, whole] at merged
      simpa only [start, data, turned] using merged

end Reader

/-- The rows that a source shows through chosen columns are those with a tuple that is not zero. -/
theorem Source.tupleRows_eq {source : Source} {columns : List Nat} (valid : source.WellFormed)
    (sorted : columns.Pairwise (· < ·)) (inside : ∀ col ∈ columns, col < source.cols) :
    source.tupleRows columns = source.shownFrom columns 0 := by
  have yields := Reader.yields_start valid.block sorted inside
  have shown : TupleRow.nonzeroFrom (source.storedTuple columns) source.rows 0 =
      source.shownFrom columns 0 :=
    TupleRow.nonzeroFrom_congr fun row bound => storedTuple_eq valid inside bound
  rw [Source.tupleRows, Reader.drain_of_yields yields, shown]
  simp

/-- A single column needs no reader. -/
theorem Bitmap.tupleRows_eq {source : Source} {columns : List Nat} (valid : source.WellFormed)
    (sorted : columns.Pairwise (· < ·)) (inside : ∀ col ∈ columns, col < source.cols) :
    Bitmap.tupleRows columns source = source.shownFrom columns 0 := by
  unfold Bitmap.tupleRows
  split
  next column =>
    have single := Source.column_eq valid (inside column (by simp))
    rw [single, line, Source.dropZeros, Source.shownFrom, TupleRow.nonzeroFrom, Nat.sub_zero,
      ← List.range_eq_range', ← List.filterMap_eq_filter, List.filterMap_map,
      List.map_filterMap]
    apply List.filterMap_congr
    intro row _
    by_cases zero : (source.cell row column).isZero = true <;>
      simp [TupleRow.nonzero?, Source.tuple, isZeroTuple, zero]
  next => exact Source.tupleRows_eq valid sorted inside

end PackedMatrix
