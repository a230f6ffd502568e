import PackedMatrix.Proofs.DictionaryTuples
import PackedMatrix.Proofs.SourceView
import PackedMatrix.Proofs.Steps

namespace PackedMatrix

namespace Group

/-- The cells that a group shows by row and column, to both ways of reading it. -/
structure Shows (group : Group) (cell : Nat → Nat → Cell) : Prop where
  columns : group.columns.Pairwise (· < ·)
  cellAt : ∀ row place (inside : place < group.columns.length), row < group.rows →
    group.cellAt row place = .ok (cell row group.columns[place])
  writes : ∀ width, (∀ col ∈ group.columns, col < width) → ∃ writes : List (Nat × Cell),
    (∀ buffer, buffer.size = group.rows * width → group.decompressInto width buffer =
      .ok (writes.foldl (fun cells write => cells.setIfInBounds write.1 write.2) buffer)) ∧
    ∀ row col, row < group.rows → col < width →
      (col ∉ group.columns → Writes.last (row * width + col) writes = none) ∧
      (col ∈ group.columns →
        (Writes.last (row * width + col) writes).getD Cell.zero = cell row col)

/-- Writing a group puts its cells into its columns of a buffer of zeros, and no others. -/
theorem Shows.decompressInto {group : Group} {cell : Nat → Nat → Cell} (shown : group.Shows cell)
    {width : Nat} (inside : ∀ col ∈ group.columns, col < width) {buffer : Array Cell}
    (size : buffer.size = group.rows * width) : ∃ after,
      group.decompressInto width buffer = .ok after ∧ after.size = buffer.size ∧
      ∀ row col, row < group.rows → col < width →
        (col ∉ group.columns → after[row * width + col]? = buffer[row * width + col]?) ∧
        (col ∈ group.columns → buffer[row * width + col]? = some Cell.zero →
          after[row * width + col]? = some (cell row col)) := by
  obtain ⟨writes, runs, last⟩ := shown.writes width inside
  refine ⟨_, runs buffer size, Writes.size_foldl _ _, ?_⟩
  intro row col inRow inCol
  obtain ⟨other, own⟩ := last row col inRow inCol
  rw [Writes.getElem?_foldl]
  constructor
  · intro absent
    rw [other absent]
    cases buffer[row * width + col]? <;> rfl
  · intro present blank
    rw [blank, Option.map_some, own present]

theorem place?_eq {group : Group} (sorted : group.columns.Pairwise (· < ·)) (col : Nat) :
    group.place? col = if col ∈ group.columns then some (group.columns.idxOf col) else none :=
  Search.find?_toArray sorted col

/-- A read in a column of the group looks at the column's place in its list. -/
theorem get?_of_mem {group : Group} (sorted : group.columns.Pairwise (· < ·)) {row col : Nat}
    (inRow : row < group.rows) (member : col ∈ group.columns) :
    group.get? row col = (group.cellAt row (group.columns.idxOf col)).map some := by
  rw [get?, if_pos inRow, place?_eq sorted, if_pos member]

/-- A read of a place gives the cell that is shown there, and nothing elsewhere. -/
theorem Shows.get?_eq {group : Group} {cell : Nat → Nat → Cell} (shown : group.Shows cell)
    (row col : Nat) : group.get? row col =
      .ok (if row < group.rows ∧ col ∈ group.columns then some (cell row col) else none) := by
  by_cases inRow : row < group.rows
  · by_cases member : col ∈ group.columns
    · have inside : group.columns.idxOf col < group.columns.length :=
        List.idxOf_lt_length_iff.mpr member
      rw [get?_of_mem shown.columns inRow member, if_pos ⟨inRow, member⟩]
      simp only [shown.cellAt row _ inside inRow, List.getElem_idxOf inside, Except.map]
    · rw [get?, if_pos inRow, place?_eq shown.columns, if_neg member,
        if_neg (fun both => member both.2)]
  · rw [get?, if_neg inRow, if_neg (fun both => inRow both.1)]

/-- The writes of placements, the cells of one tuple after the other. -/
def placementWrites (columns : List Nat) (tuples : List (List Cell)) (width : Nat)
    (placements : List Placement) : List (Nat × Cell) :=
  placements.flatMap fun placement =>
    (columns.zip (tuples.getD placement.tuple [])).map fun cell =>
      (placement.row * width + cell.1, cell.2)

section Placements

variable {columns : List Nat} {dictionary : Dictionary} {tuples : List (List Cell)}
  {width rows : Nat}

theorem position_lt_of_mem {row : Nat} {tuple : List Cell} (inside : ∀ col ∈ columns, col < width)
    (inRow : row < rows) {write : Nat × Cell}
    (member : write ∈ (columns.zip tuple).map fun cell => (row * width + cell.1, cell.2)) :
    write.1 < rows * width := by
  obtain ⟨⟨col, value⟩, listed, rfl⟩ := List.mem_map.mp member
  exact Block.position_lt inRow (inside col (List.of_mem_zip listed).1)

theorem writePlacements_eq (placements : List Placement)
    (holds : dictionary.Holds columns.length tuples) (inside : ∀ col ∈ columns, col < width)
    (bounds : ∀ placement ∈ placements, placement.row < rows ∧ placement.tuple < tuples.length)
    {buffer : Array Cell} (size : buffer.size = rows * width) :
    writePlacements columns dictionary width buffer placements =
      .ok ((placementWrites columns tuples width placements).foldl
        (fun cells write => cells.setIfInBounds write.1 write.2) buffer) := by
  induction placements generalizing buffer with
  | nil => rfl
  | cons placement rest ih =>
    obtain ⟨inRow, named⟩ := bounds placement (by simp)
    have later := fun other member => bounds other (List.mem_cons_of_mem placement member)
    have tuple : tuples.getD placement.tuple [] = tuples[placement.tuple] := by
      rw [List.getD_eq_getElem?_getD, List.getElem?_eq_getElem named, Option.getD_some]
    have written : writeTuple width placement.row buffer (columns.zip tuples[placement.tuple]) =
        .ok (((columns.zip tuples[placement.tuple]).map fun cell =>
          (placement.row * width + cell.1, cell.2)).foldl
            (fun cells write => cells.setIfInBounds write.1 write.2) buffer) := by
      rw [← Writes.foldlM_writeCell (by
        intro write member
        rw [size]
        exact position_lt_of_mem inside inRow member), List.foldlM_map]
      rfl
    have step : (do
        let tuple ← Fault.found (dictionary.tuple? placement.tuple)
        writeTuple width placement.row buffer (columns.zip tuple)) =
          writeTuple width placement.row buffer (columns.zip tuples[placement.tuple]) := by
      rw [holds.tuple?_eq named]
      rfl
    rw [writePlacements, List.foldlM_cons, step, written]
    refine (ih later (by rw [Writes.size_foldl, size])).trans ?_
    rw [placementWrites, placementWrites, List.flatMap_cons, List.foldl_append, tuple]

theorem last_placementWrites_of_not_mem {col : Nat} (inCol : col < width)
    (inside : ∀ col ∈ columns, col < width) (absent : col ∉ columns) (row : Nat)
    (placements : List Placement) :
    Writes.last (row * width + col) (placementWrites columns tuples width placements) = none := by
  apply Writes.last_eq_none
  intro write member same
  obtain ⟨placement, _, listed⟩ := List.mem_flatMap.mp member
  obtain ⟨⟨other, value⟩, here, rfl⟩ := List.mem_map.mp listed
  have known := (List.of_mem_zip here).1
  obtain ⟨_, equal⟩ := Block.position_inj (inside other known) inCol same
  exact absent (equal ▸ known)

theorem last_tupleWrites (unique : columns.Nodup) (inside : ∀ col ∈ columns, col < width)
    {tuple : List Cell} (length : tuple.length = columns.length) {place : Nat}
    (inPlace : place < columns.length) (row other : Nat) :
    Writes.last (row * width + columns[place])
        ((columns.zip tuple).map fun cell => (other * width + cell.1, cell.2)) =
      if other = row then some (tuple.getD place Cell.zero) else none := by
  have value : tuple.getD place Cell.zero = tuple[place] := by
    rw [List.getD_eq_getElem?_getD, List.getElem?_eq_getElem, Option.getD_some]
  by_cases same : other = row
  · rw [if_pos same, value]
    refine Writes.last_eq_some _ ?_ ?_
    · intro write member position
      obtain ⟨⟨col, cell⟩, listed, rfl⟩ := List.mem_map.mp member
      obtain ⟨i, found, pair⟩ := List.mem_iff_getElem.mp listed
      rw [List.getElem_zip] at pair
      cases pair
      rw [List.length_zip] at found
      obtain ⟨_, equal⟩ := Block.position_inj (inside _ (List.getElem_mem (by omega)))
        (inside _ (List.getElem_mem inPlace)) position
      obtain rfl : i = place := (List.Nodup.getElem_inj_iff unique).mp equal
      rfl
    · refine ⟨(other * width + columns[place], tuple[place]), ?_, by rw [same]⟩
      refine List.mem_map.mpr ⟨(columns[place], tuple[place]), ?_, rfl⟩
      refine List.mem_iff_getElem.mpr ⟨place, by rw [List.length_zip]; omega, ?_⟩
      rw [List.getElem_zip]
  · rw [if_neg same]
    apply Writes.last_eq_none
    intro write member position
    obtain ⟨⟨col, cell⟩, listed, rfl⟩ := List.mem_map.mp member
    exact same (Block.position_inj (inside _ (List.of_mem_zip listed).1)
      (inside _ (List.getElem_mem inPlace)) position).1

/-- In a row, the tuple of the last placement decides. -/
theorem last_placementWrites (unique : columns.Nodup) (inside : ∀ col ∈ columns, col < width)
    (lengths : ∀ tuple ∈ tuples, tuple.length = columns.length) {place : Nat}
    (inPlace : place < columns.length) (row : Nat) {placements : List Placement}
    (named : ∀ placement ∈ placements, placement.tuple < tuples.length) :
    Writes.last (row * width + columns[place]) (placementWrites columns tuples width placements) =
      (Writes.last row (placements.map fun placement => (placement.row, placement.tuple))).map
        fun tuple => (tuples.getD tuple []).getD place Cell.zero := by
  induction placements with
  | nil => rfl
  | cons placement rest ih =>
    have bound := named placement (by simp)
    have later := ih fun other member => named other (List.mem_cons_of_mem placement member)
    have tuple : tuples.getD placement.tuple [] = tuples[placement.tuple] := by
      rw [List.getD_eq_getElem?_getD, List.getElem?_eq_getElem bound, Option.getD_some]
    have here := last_tupleWrites unique inside (lengths _ (List.getElem_mem bound)) inPlace row
      placement.row
    rw [placementWrites] at later ⊢
    rw [List.flatMap_cons, Writes.last_append, later, tuple, here, List.map_cons, Writes.last_cons,
      Option.map_or]
    by_cases same : placement.row = row
    · rw [if_pos same, if_pos same, Option.map_some, tuple]
    · rw [if_neg same, if_neg same, Option.map_none]

end Placements

theorem decompressInto_eq {group : Group} {dictionary : Dictionary} {tuples : List (List Cell)}
    (dictionary? : group.body.dictionary? = some dictionary) {listed : List Placement}
    (made : group.placements = .ok listed) (holds : dictionary.Holds group.columns.length tuples)
    {width : Nat} (inside : ∀ col ∈ group.columns, col < width)
    (bounds : ∀ placement ∈ listed,
      placement.row < group.rows ∧ placement.tuple < tuples.length)
    {buffer : Array Cell} (size : buffer.size = group.rows * width) :
    group.decompressInto width buffer =
      .ok ((placementWrites group.columns tuples width listed).foldl
        (fun cells write => cells.setIfInBounds write.1 write.2) buffer) := by
  have written := writePlacements_eq listed holds inside bounds size
  unfold Group.decompressInto
  cases body : group.body with
  | uncompressed block =>
    rw [body] at dictionary?
    cases dictionary?
  | _ =>
    rw [body] at dictionary?
    simp only [dictionary?, made, bind, Except.bind, written]

/-- The tuple that a read of each row finds, and the one that a bulk read leaves in it. -/
structure Finds (group : Group) (dictionary : Dictionary) (found? placed? : Nat → Option Nat) :
    Prop where
  dictionary? : group.body.dictionary? = some dictionary
  cellAt : ∀ row place, row < group.rows → group.cellAt row place =
    (found? row).elim (.ok Cell.zero) fun tuple => tupleCell dictionary tuple place
  named : ∀ row tuple, row < group.rows → found? row = some tuple → tuple < dictionary.tuples
  placements : ∃ listed, group.placements = .ok listed ∧
    (∀ placement ∈ listed, placement.row < group.rows ∧ placement.tuple < dictionary.tuples) ∧
    ∀ row, row < group.rows →
      Writes.last row (listed.map fun placement => (placement.row, placement.tuple)) = placed? row

/-- The tuple that a group names for each row, the same to both ways of reading it. -/
structure Codes (group : Group) (dictionary : Dictionary) (code? : Nat → Option Nat) : Prop where
  dictionary? : group.body.dictionary? = some dictionary
  cellAt : ∀ row place, row < group.rows → group.cellAt row place =
    (code? row).elim (.ok Cell.zero) fun tuple => tupleCell dictionary tuple place
  placements : ∃ listed, group.placements = .ok listed ∧
    (∀ placement ∈ listed, placement.row < group.rows ∧ placement.tuple < dictionary.tuples) ∧
    ∀ row, row < group.rows →
      Writes.last row (listed.map fun placement => (placement.row, placement.tuple)) = code? row

section Codes

variable {group : Group} {dictionary : Dictionary} {found? placed? code? : Nat → Option Nat}

theorem Finds.codes (finds : group.Finds dictionary found? placed?)
    (agree : ∀ row, row < group.rows → found? row = placed? row) :
    group.Codes dictionary placed? := by
  refine ⟨finds.dictionary?, ?_, finds.placements⟩
  intro row place inRow
  rw [← agree row inRow]
  exact finds.cellAt row place inRow

theorem Codes.finds (codes : group.Codes dictionary code?) :
    group.Finds dictionary code? code? := by
  obtain ⟨listed, made, bounds, last⟩ := codes.placements
  refine ⟨codes.dictionary?, codes.cellAt, ?_, listed, made, bounds, last⟩
  intro row tuple inRow found
  have placed := Writes.mem_of_last ((last row inRow).trans found)
  obtain ⟨placement, member, same⟩ := List.mem_map.mp placed
  cases same
  exact (bounds placement member).2

end Codes

/-- A group shows the cells of the tuples that it names. -/
theorem Codes.shows {group : Group} {dictionary : Dictionary} {code? : Nat → Option Nat}
    (codes : group.Codes dictionary code?) {tuples : List (List Cell)}
    (holds : dictionary.Holds group.columns.length tuples) (nonempty : group.columns ≠ [])
    (sorted : group.columns.Pairwise (· < ·)) {cell : Nat → Nat → Cell}
    (named : ∀ row tuple, row < group.rows → code? row = some tuple →
      tuples[tuple]? = some (group.columns.map (cell row)))
    (zero : ∀ row, row < group.rows → code? row = none → ∀ col ∈ group.columns,
      cell row col = Cell.zero) : group.Shows cell := by
  obtain ⟨listed, made, bounds, last⟩ := codes.placements
  have count := holds.tuples_eq (List.length_pos_iff.mpr nonempty)
  refine ⟨sorted, ?_, ?_⟩
  · intro row place inside inRow
    rw [codes.cellAt row place inRow]
    cases found : code? row with
    | none => rw [Option.elim_none, zero row inRow found _ (List.getElem_mem inside)]
    | some tuple =>
      obtain ⟨bound, value⟩ := List.getElem?_eq_some_iff.mp (named row tuple inRow found)
      have within : place < tuples[tuple].length := by rwa [value, List.length_map]
      have read := holds.value?_getElem bound within
      rw [Option.elim_some, tupleCell, read]
      simp [Fault.found, value]
  · intro width within
    refine ⟨placementWrites group.columns tuples width listed, ?_, ?_⟩
    · intro buffer size
      exact decompressInto_eq codes.dictionary? made holds within (by rwa [count] at bounds) size
    · intro row col inRow inCol
      refine ⟨fun absent => last_placementWrites_of_not_mem inCol within absent row listed, ?_⟩
      intro present
      obtain ⟨place, inside, rfl⟩ := List.mem_iff_getElem.mp present
      rw [last_placementWrites (Increasing.nodup sorted) within holds.lengths inside row (by
        intro placement member
        rw [← count]
        exact (bounds placement member).2), last row inRow]
      cases found : code? row with
      | none => rw [Option.map_none, Option.getD_none, zero row inRow found _ present]
      | some tuple =>
        have value := named row tuple inRow found
        simp [List.getD_eq_getElem?_getD, value, inside]

end Group

end PackedMatrix
