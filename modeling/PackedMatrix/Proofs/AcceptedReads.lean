import PackedMatrix.Proofs.BlockCopies
import PackedMatrix.Proofs.GroupChecks
import PackedMatrix.Proofs.StreamFinds

namespace PackedMatrix

namespace Group

variable {group : Group} {dictionary : Dictionary} {found? placed? : Nat → Option Nat}

/-- The cells that a read of each place gives, and those that a bulk read puts into zeros. -/
structure Reads (group : Group) (read placed : Nat → Nat → Cell) : Prop where
  get? : ∀ row col, row < group.rows → col ∈ group.columns →
    group.get? row col = .ok (some (read row col))
  decompressInto : ∀ width, (∀ col ∈ group.columns, col < width) → ∀ buffer : Array Cell,
    buffer.size = group.rows * width → ∃ after, group.decompressInto width buffer = .ok after ∧
      after.size = buffer.size ∧ ∀ row col, row < group.rows → col < width →
        (col ∉ group.columns → after[row * width + col]? = buffer[row * width + col]?) ∧
        (col ∈ group.columns → buffer[row * width + col]? = some Cell.zero →
          after[row * width + col]? = some (placed row col))

theorem Shows.reads {cell : Nat → Nat → Cell} (shown : group.Shows cell) :
    group.Reads cell cell := by
  refine ⟨?_, fun width inside buffer size => shown.decompressInto inside size⟩
  intro row col inRow member
  rw [shown.get?_eq, if_pos ⟨inRow, member⟩]

/-- The cell at a place of a tuple; a row without a tuple is zero. -/
def cellOf (dictionary : Dictionary) (code? : Option Nat) (place : Nat) : Cell :=
  (code?.bind fun tuple => dictionary.value? tuple place).getD Cell.zero

namespace Accepted

theorem holds (accepted : group.Accepted)
    (dictionary? : group.body.dictionary? = some dictionary) :
    dictionary.Holds group.columns.length dictionary.cut ∧
      dictionary.tuples = dictionary.cut.length := by
  obtain ⟨whole, wide⟩ := accepted.dictionary dictionary dictionary?
  have holds := Dictionary.holds_cut whole
  rw [wide] at holds
  exact ⟨holds, holds.tuples_eq (List.length_pos_iff.mpr accepted.nonempty)⟩

theorem value?_eq (accepted : group.Accepted)
    (dictionary? : group.body.dictionary? = some dictionary) {tuple place : Nat}
    (named : tuple < dictionary.tuples) (inside : place < group.columns.length) :
    dictionary.value? tuple place =
      some ((dictionary.cut.getD tuple []).getD place Cell.zero) := by
  obtain ⟨holds, count⟩ := accepted.holds dictionary?
  rw [count] at named
  have length := holds.lengths _ (List.getElem_mem named)
  have within : place < dictionary.cut[tuple].length := by rwa [length]
  rw [holds.value?_getElem named within]
  simp [List.getD_eq_getElem?_getD, named, within]

end Accepted

/-- A group that names a tuple of its dictionary for each row is read without fault. -/
theorem Finds.reads (finds : group.Finds dictionary found? placed?) (accepted : group.Accepted) :
    group.Reads (fun row col => cellOf dictionary (found? row) (group.columns.idxOf col))
      fun row col => cellOf dictionary (placed? row) (group.columns.idxOf col) := by
  obtain ⟨holds, count⟩ := accepted.holds finds.dictionary?
  have unique := Increasing.nodup accepted.sorted
  refine ⟨?_, ?_⟩
  · intro row col inRow member
    have inside := List.idxOf_lt_length_iff.mpr member
    rw [get?_of_mem accepted.sorted inRow member, finds.cellAt row _ inRow]
    cases found : found? row with
    | none => rfl
    | some tuple =>
      have value := accepted.value?_eq finds.dictionary? (finds.named row tuple inRow found) inside
      simp only [Option.elim_some, tupleCell, value, Fault.found, Except.map, cellOf,
        Option.bind_some, Option.getD_some]
  · intro width inside buffer size
    obtain ⟨listed, made, bounds, last⟩ := finds.placements
    rw [count] at bounds
    refine ⟨_, decompressInto_eq finds.dictionary? made holds inside bounds size,
      Writes.size_foldl _ _, ?_⟩
    intro row col inRow inCol
    rw [Writes.getElem?_foldl]
    constructor
    · intro absent
      rw [last_placementWrites_of_not_mem inCol inside absent]
      cases buffer[row * width + col]? <;> rfl
    · intro member blank
      obtain ⟨place, within, rfl⟩ := List.mem_iff_getElem.mp member
      rw [blank, Option.map_some, last_placementWrites unique inside holds.lengths within row
        fun placement here => (bounds placement here).2, last row inRow,
        Increasing.idxOf_getElem accepted.sorted within]
      cases placed : placed? row with
      | none => rfl
      | some tuple =>
        obtain ⟨placement, here, same⟩ := List.mem_map.mp
          (Writes.mem_of_last ((last row inRow).trans placed))
        cases same
        have named := (bounds placement here).2
        rw [← count] at named
        have value := accepted.value?_eq finds.dictionary? named within
        simp only [Option.map_some, Option.getD_some, cellOf, Option.bind_some, value]

namespace Accepted

variable {columns : List Nat} {rows : Nat} {index : RowIndex} {codes : CodeMap}

theorem codes_ddc
    (accepted : (⟨columns, rows, .ddc dictionary codes⟩ : Group).Accepted) :
    (⟨columns, rows, .ddc dictionary codes⟩ : Group).Codes dictionary codes.get? := by
  have length := checkBody_ddc_iff.mp accepted.body
  refine Group.codes_ddc length ?_
  intro row inRow
  have inside : row < codes.toList.length := by rwa [CodeMap.length_toList, length]
  exact ⟨_, (accepted.sized codes rfl).get?_eq inside,
    accepted.named dictionary codes rfl rfl _ (List.getElem_mem inside)⟩

theorem exists_coded (accepted : group.Accepted)
    (dictionary? : group.body.dictionary? = some dictionary)
    (codes? : group.body.codes? = some codes)
    (checked : checkIndex group.rows index (some codes) = .ok ()) :
    ∃ listed place, index.Lists listed place ∧ listed.Pairwise (· < ·) ∧
      (∀ row ∈ listed, row < group.rows) ∧ codes.toList.length = listed.length ∧
      (∀ i (bound : i < codes.toList.length), codes.get? i = some codes.toList[i]) ∧
      ∀ code ∈ codes.toList, code < dictionary.tuples := by
  obtain ⟨listed, place, lists, order, inside, length⟩ := exists_lists_of_checkIndex checked
  refine ⟨listed, place, lists, order, inside, ?_, fun i bound => ?_, ?_⟩
  · rw [CodeMap.length_toList, length codes rfl]
  · exact (accepted.sized codes codes?).get?_eq bound
  · exact accepted.named dictionary codes dictionary? codes?

/-- An accepted group that does not list the rows of each tuple names a tuple for each row; both
reads find the same one, unless rows go beyond the numbers that an index can hold. -/
theorem exists_finds (accepted : group.Accepted)
    (dictionary? : group.body.dictionary? = some dictionary)
    (notOffsets : group.encoding ≠ .ole) (notRuns : group.encoding ≠ .rle) :
    ∃ found? placed?, group.Finds dictionary found? placed? ∧
      (group.rows ≤ maxIndex → ∀ row, row < group.rows → found? row = placed? row) := by
  have body := accepted.body
  obtain ⟨columns, rows, stored⟩ := group
  cases stored with
  | empty => cases dictionary?
  | uncompressed block => cases dictionary?
  | ole _ _ => exact absurd rfl notOffsets
  | rle _ _ => exact absurd rfl notRuns
  | const _ =>
    cases dictionary?
    have single := checkBody_const_iff.mp body
    exact ⟨_, _, (codes_const (by omega)).finds, fun _ _ _ => rfl⟩
  | ddc _ codes =>
    cases dictionary?
    exact ⟨_, _, accepted.codes_ddc.finds, fun _ _ _ => rfl⟩
  | sdc _ index codes =>
    cases dictionary?
    obtain ⟨filled, checked⟩ := checkBody_sdc_iff.mp body
    obtain ⟨listed, place, lists, order, inside, length, read, named⟩ :=
      accepted.exists_coded rfl rfl checked
    exact ⟨_, _, finds_sdc lists order inside length read named filled,
      fun short row inRow => by rw [mod_of_short short inRow]⟩
  | sdcZeros _ index codes =>
    cases dictionary?
    obtain ⟨listed, place, lists, order, inside, length, read, named⟩ :=
      accepted.exists_coded rfl rfl body
    exact ⟨_, _, finds_sdcZeros lists order inside length read named,
      fun short row inRow => by rw [mod_of_short short inRow]⟩
  | sdcSingle _ index =>
    cases dictionary?
    obtain ⟨⟨filled, _⟩, checked⟩ := checkBody_sdcSingle_iff.mp body
    obtain ⟨listed, place, lists, order, inside, _⟩ := exists_lists_of_checkIndex checked
    exact ⟨_, _, finds_sdcSingle lists order inside filled,
      fun short row inRow => by rw [mod_of_short short inRow]⟩
  | sdcSingleZeros _ index =>
    cases dictionary?
    obtain ⟨single, checked⟩ := checkBody_sdcSingleZeros_iff.mp body
    obtain ⟨listed, place, lists, order, inside, _⟩ := exists_lists_of_checkIndex checked
    exact ⟨_, _, finds_sdcSingleZeros lists order inside (by omega),
      fun short row inRow => by rw [mod_of_short short inRow]⟩

theorem shape_of_uncompressed {block : Block}
    (accepted : (⟨columns, rows, .uncompressed block⟩ : Group).Accepted) :
    block.WellFormed ∧ block.rows = rows ∧ block.cols = columns.length := by
  obtain ⟨valid, shape⟩ := checkBody_uncompressed_iff.mp accepted.body
  exact ⟨Block.wellFormed_of_validate valid, shape⟩

theorem exists_shows (accepted : group.Accepted) (plain : group.body.dictionary? = none) :
    ∃ cell, group.Shows cell := by
  obtain ⟨columns, rows, stored⟩ := group
  cases stored with
  | empty => exact ⟨fun _ _ => Cell.zero, shows_empty accepted.sorted fun _ _ _ _ => rfl⟩
  | uncompressed block =>
    obtain ⟨valid, rfl, wide⟩ := accepted.shape_of_uncompressed
    refine ⟨fun row col => block.cell row (columns.idxOf col),
      shows_uncompressed valid wide accepted.sorted ?_⟩
    intro row place inside _
    rw [Increasing.idxOf_getElem accepted.sorted inside]
  | _ => cases plain

theorem exists_reads (accepted : group.Accepted) (notOffsets : group.encoding ≠ .ole)
    (notRuns : group.encoding ≠ .rle) : ∃ read placed, group.Reads read placed ∧
      (group.rows ≤ maxIndex → ∀ row, row < group.rows → read row = placed row) := by
  cases dictionary? : group.body.dictionary? with
  | none =>
    obtain ⟨cell, shown⟩ := accepted.exists_shows dictionary?
    exact ⟨cell, cell, shown.reads, fun _ _ _ => rfl⟩
  | some dictionary =>
    obtain ⟨found?, placed?, finds, agree⟩ := accepted.exists_finds dictionary? notOffsets notRuns
    refine ⟨_, _, finds.reads accepted, ?_⟩
    intro short row inRow
    rw [agree short row inRow]

theorem exists_cuts {offsets : OffsetStreams}
    (accepted : (⟨columns, rows, .ole dictionary offsets⟩ : Group).Accepted) :
    ∃ blocks : Nat → List (List Nat), ∀ tuple, tuple < dictionary.tuples →
      offsets.Cut rows tuple (blocks tuple) := by
  have checked := mapError_eq_ok accepted.body
  have each : ∀ tuple, tuple < dictionary.tuples → ∃ blocks, offsets.Cut rows tuple blocks :=
    fun tuple named => OffsetStreams.exists_cut checked named
  choose! blocks cuts using each
  exact ⟨blocks, cuts⟩

theorem exists_spans {runs : RunStreams}
    (accepted : (⟨columns, rows, .rle dictionary runs⟩ : Group).Accepted) :
    ∃ found : Nat → List Run, ∀ tuple, tuple < dictionary.tuples →
      runs.Spans rows tuple (found tuple) := by
  have checked := mapError_eq_ok accepted.body
  have each : ∀ tuple, tuple < dictionary.tuples → ∃ found, runs.Spans rows tuple found :=
    fun tuple named => RunStreams.exists_spans checked named
  choose! found spans using each
  exact ⟨found, spans⟩

/-- Every accepted group can be read, unless it would have to divide by a block size of zero. -/
theorem exists_reads_of_divides (accepted : group.Accepted)
    (divides : ∀ dictionary offsets, group.body = .ole dictionary offsets →
      offsets.blockSize ≠ 0) : ∃ read placed, group.Reads read placed := by
  by_cases notOffsets : group.encoding ≠ .ole
  · by_cases notRuns : group.encoding ≠ .rle
    · obtain ⟨read, placed, reads, _⟩ := accepted.exists_reads notOffsets notRuns
      exact ⟨read, placed, reads⟩
    · obtain ⟨columns, rows, stored⟩ := group
      cases stored with
      | rle dictionary runs =>
        obtain ⟨found, spans⟩ := accepted.exists_spans
        exact ⟨_, _, (finds_rle (accepted.wide rfl) spans).reads accepted⟩
      | _ => exact absurd (fun same => nomatch same) notRuns
  · obtain ⟨columns, rows, stored⟩ := group
    cases stored with
    | ole dictionary offsets =>
      obtain ⟨blocks, cuts⟩ := accepted.exists_cuts
      obtain ⟨found?, _, finds⟩ :=
        finds_ole cuts (accepted.wide rfl) (divides dictionary offsets rfl)
      exact ⟨_, _, finds.reads accepted⟩
    | _ => exact absurd (fun same => nomatch same) notOffsets

theorem exists_placements (accepted : group.Accepted)
    (dictionary? : group.body.dictionary? = some dictionary) : ∃ listed,
      group.placements = .ok listed ∧ ∀ placement ∈ listed,
        placement.row < group.rows ∧ placement.tuple < dictionary.tuples := by
  by_cases notOffsets : group.encoding ≠ .ole
  · obtain ⟨_, _, finds⟩ : ∃ found? placed?, group.Finds dictionary found? placed? := by
      by_cases notRuns : group.encoding ≠ .rle
      · obtain ⟨found?, placed?, finds, _⟩ :=
          accepted.exists_finds dictionary? notOffsets notRuns
        exact ⟨found?, placed?, finds⟩
      · obtain ⟨columns, rows, stored⟩ := group
        cases stored with
        | rle _ runs =>
          cases dictionary?
          obtain ⟨found, spans⟩ := accepted.exists_spans
          exact ⟨_, _, finds_rle (accepted.wide rfl) spans⟩
        | _ => exact absurd (fun same => nomatch same) notRuns
    obtain ⟨listed, made, bounds, _⟩ := finds.placements
    exact ⟨listed, made, bounds⟩
  · obtain ⟨columns, rows, stored⟩ := group
    cases stored with
    | ole _ offsets =>
      cases dictionary?
      obtain ⟨blocks, cuts⟩ := accepted.exists_cuts
      have rows := tupleRows_eq fun tuple named =>
        OffsetStreams.rowsOf_eq (cuts tuple named).stream
      exact ⟨_, (placements_ole (accepted.wide rfl) offsets).trans rows,
        placements_listed fun tuple named => (cuts tuple named).inside⟩
    | _ => exact absurd (fun same => nomatch same) notOffsets

/-- Writing an accepted group is a list of writes, each to a row and a column of the group. -/
theorem exists_writes (accepted : group.Accepted) {width : Nat}
    (inside : ∀ col ∈ group.columns, col < width) : ∃ writes : List (Nat × Cell),
      (∀ buffer : Array Cell, buffer.size = group.rows * width →
        group.decompressInto width buffer =
          .ok (writes.foldl (fun cells write => cells.setIfInBounds write.1 write.2) buffer)) ∧
      ∀ write ∈ writes, ∃ row col, row < group.rows ∧ col ∈ group.columns ∧
        write.1 = row * width + col := by
  cases dictionary? : group.body.dictionary? with
  | none =>
    obtain ⟨columns, rows, stored⟩ := group
    cases stored with
    | empty => exact ⟨[], fun _ _ => rfl, by simp⟩
    | uncompressed block =>
      obtain ⟨valid, rfl, wide⟩ := accepted.shape_of_uncompressed
      have places : ∀ write ∈ copyWrites columns block width, ∃ row col, row < block.rows ∧
          col ∈ columns ∧ write.1 = row * width + col := by
        intro write member
        obtain ⟨row, place, bound, inRow, position, _⟩ := mem_copyWrites.mp member
        exact ⟨row, columns[place], inRow, List.getElem_mem bound, position⟩
      refine ⟨copyWrites columns block width, fun buffer size => ?_, places⟩
      apply writeBlock_eq valid wide
      intro write member
      obtain ⟨row, col, inRow, listed, position⟩ := places write member
      rw [size, position]
      exact Block.position_lt inRow (inside col listed)
    | _ => cases dictionary?
  | some dictionary =>
    obtain ⟨holds, count⟩ := accepted.holds dictionary?
    obtain ⟨listed, made, bounds⟩ := accepted.exists_placements dictionary?
    rw [count] at bounds
    refine ⟨_, fun buffer size => decompressInto_eq dictionary? made holds inside bounds size, ?_⟩
    intro write member
    obtain ⟨placement, placed, here⟩ := List.mem_flatMap.mp member
    obtain ⟨⟨col, value⟩, zipped, rfl⟩ := List.mem_map.mp here
    exact ⟨placement.row, col, (bounds placement placed).1, (List.of_mem_zip zipped).1, rfl⟩

theorem exists_decompressInto (accepted : group.Accepted) {width : Nat}
    (inside : ∀ col ∈ group.columns, col < width) {buffer : Array Cell}
    (size : buffer.size = group.rows * width) :
    ∃ after, group.decompressInto width buffer = .ok after ∧ after.size = buffer.size := by
  obtain ⟨writes, written, _⟩ := accepted.exists_writes inside
  exact ⟨_, written buffer size, Writes.size_foldl _ _⟩

end Accepted

/-- A group that passed the check is read without fault, both by cells and as a whole, as long as
it need not divide by a block size of zero; the check does not look at the block size. Row numbers
stay below the group's rows and, for the block sizes that groups are made with, never wrap. -/
theorem reads_of_validate (accepted : group.validate = .ok ()) :
    (∀ row col, row < group.rows → col ∈ group.columns →
      ((∀ dictionary offsets, group.body = .ole dictionary offsets → offsets.blockSize ≠ 0) →
        ∃ cell, group.get? row col = .ok (some cell)) ∧
      ∀ dictionary offsets, group.body = .ole dictionary offsets → offsets.blockSize = 0 →
        group.get? row col = .error .zeroDivisor) ∧
    (∀ width, (∀ col ∈ group.columns, col < width) → ∃ after,
      group.decompressInto width (Array.replicate (group.rows * width) Cell.zero) = .ok after ∧
        after.size = group.rows * width) ∧
    (∀ dictionary offsets, group.body = .ole dictionary offsets →
      offsets.blockSize ≤ Settings.maxOffsetBlockSize → ∀ tuple, tuple < dictionary.tuples →
        ∃ blocks, offsets.Cut group.rows tuple blocks ∧ ∀ block place, block < blocks.length →
          place < UInt16.size → block * offsets.blockSize + place < UInt64.size) ∧
    ∀ dictionary runs, group.body = .rle dictionary runs → ∀ tuple, tuple < dictionary.tuples →
      ∃ found, runs.Spans group.rows tuple found := by
  have accepted := validate_eq_ok_iff.mp accepted
  refine ⟨?_, ?_, ?_, ?_⟩
  · intro row col inRow member
    refine ⟨fun divides => ?_, fun dictionary offsets body zero => ?_⟩
    · obtain ⟨read, _, reads⟩ := accepted.exists_reads_of_divides divides
      exact ⟨_, reads.get? row col inRow member⟩
    · have wide := accepted.wide (by rw [body]; rfl : group.body.dictionary? = some dictionary)
      rw [get?_of_mem accepted.sorted inRow member, cellAt, body]
      simp only [OffsetStreams.tupleIn_eq wide, OffsetStreams.tupleOf, zero, ↓reduceIte]
      rfl
  · intro width inside
    have size := Array.size_replicate (n := group.rows * width) (v := Cell.zero)
    obtain ⟨after, written, same⟩ := accepted.exists_decompressInto inside size
    exact ⟨after, written, same.trans size⟩
  · intro dictionary offsets body size tuple named
    obtain ⟨columns, rows, _⟩ := group
    cases body
    obtain ⟨blocks, cuts⟩ := accepted.exists_cuts
    exact ⟨_, cuts tuple named, fun block place inside word =>
      (cuts tuple named).add_lt size inside word⟩
  · intro dictionary runs body tuple named
    obtain ⟨columns, rows, _⟩ := group
    cases body
    obtain ⟨found, spans⟩ := accepted.exists_spans
    exact ⟨_, spans tuple named⟩

/-- Two rows of one tuple, in blocks of a given size. -/
def pairInBlocks (blockSize : Nat) : Group where
  columns := [0]
  rows := 2
  body := .ole ⟨#[⟨0x3ff0000000000000⟩], 1⟩ ⟨blockSize, ⟨#[0, 3], #[2, 0, 1]⟩⟩

theorem reads_of_validate_pairInBlocks : (pairInBlocks 4).validate = .ok () ∧
    (∃ cell, (pairInBlocks 4).get? 1 0 = .ok (some cell)) ∧
    ∃ after, (pairInBlocks 4).decompressInto 1 (Array.replicate 2 Cell.zero) = .ok after ∧
      after.size = 2 := by
  have accepted : (pairInBlocks 4).validate = .ok () := by decide +kernel
  obtain ⟨cells, buffer, _⟩ := reads_of_validate accepted
  refine ⟨accepted, (cells 1 0 (by decide) (by decide)).1 ?_, buffer 1 (by decide)⟩
  rintro _ _ ⟨⟩
  decide

/-- A block size of zero passes the check, and a read of a cell divides by it. -/
theorem get?_of_zero_blockSize : (pairInBlocks 0).validate = .ok () ∧
    0 < (pairInBlocks 0).rows ∧ 0 ∈ (pairInBlocks 0).columns ∧
    (pairInBlocks 0).get? 0 0 = .error .zeroDivisor := by
  decide +kernel

/-- Groups that passed the check and do not list the rows of each tuple hold one cell at each of
their places: a read of the place finds it, and writing the group into a buffer puts it in place of
a zero. Writing changes no other column. -/
theorem get?_and_decompressInto_of_validate (accepted : group.validate = .ok ())
    (notOffsets : group.encoding ≠ .ole) (notRuns : group.encoding ≠ .rle)
    (short : group.rows ≤ maxIndex) : ∃ cell : Nat → Nat → Cell,
      (∀ row col, row < group.rows → col ∈ group.columns →
        group.get? row col = .ok (some (cell row col))) ∧
      ∀ width, (∀ col ∈ group.columns, col < width) → ∀ buffer : Array Cell,
        buffer.size = group.rows * width → ∃ after,
          group.decompressInto width buffer = .ok after ∧ after.size = buffer.size ∧
          ∀ row col, row < group.rows → col < width →
            (col ∉ group.columns →
              after[row * width + col]? = buffer[row * width + col]?) ∧
            (col ∈ group.columns → buffer[row * width + col]? = some Cell.zero →
              after[row * width + col]? = some (cell row col)) := by
  have accepted := validate_eq_ok_iff.mp accepted
  obtain ⟨read, placed, reads, agree⟩ := accepted.exists_reads notOffsets notRuns
  refine ⟨placed, ?_, reads.decompressInto⟩
  intro row col inRow member
  rw [reads.get? row col inRow member, agree short row inRow]

/-- Two rows with codes of their own among five; the words behind the two bits hold more bits, and
the gap between the rows takes 16 bits. -/
def untidyCodes : Group where
  columns := [1, 3]
  rows := 5
  body := .sdc ⟨#[⟨1⟩, ⟨2⟩, ⟨3⟩, ⟨4⟩], 2⟩ ⟨.half #[3], #[⟨1, 0⟩], 2⟩
    (.bit #[0xfffffffffffffff1] 2)

theorem get?_and_decompressInto_of_validate_untidyCodes :
    untidyCodes.validate = .ok () ∧ untidyCodes.get? 4 3 = .ok (some ⟨2⟩) ∧
      ∃ after, untidyCodes.decompressInto 4 (Array.replicate 20 Cell.zero) = .ok after ∧
        after[19]? = some ⟨2⟩ ∧ after[18]? = some Cell.zero := by
  have accepted : untidyCodes.validate = .ok () := by decide +kernel
  have found : untidyCodes.get? 4 3 = .ok (some ⟨2⟩) := by decide +kernel
  obtain ⟨cell, read, written⟩ := get?_and_decompressInto_of_validate accepted (by decide)
    (by decide) (by decide)
  obtain ⟨after, made, _, places⟩ := written 4 (by decide) (Array.replicate 20 Cell.zero)
    Array.size_replicate
  have same := (read 4 3 (by decide) (by decide)).symm.trans found
  have own := (places 4 3 (by decide) (by decide)).2 (by decide) (by decide)
  have other := (places 4 2 (by decide) (by decide)).1 (by decide)
  refine ⟨accepted, found, after, made, own.trans ?_, other.trans (by decide)⟩
  rw [Option.some.inj (Except.ok.inj same)]

end Group

end PackedMatrix
