import PackedMatrix.Proofs.AcceptedReads

namespace PackedMatrix

namespace OffsetStreams

variable {offsets : OffsetStreams} {rows tuple : Nat} {blocks other : List (List Nat)}

/-- The same words can be cut into blocks in one way only, as far as rows are concerned. -/
theorem Cut.of_stream (cut : offsets.Cut rows tuple blocks)
    (read : offsets.streams.stream tuple = .ok (blockStream other)) :
    offsets.Cut rows tuple other := by
  have words : blockStream blocks = blockStream other :=
    Except.ok.inj (cut.stream.symm.trans read)
  have decoded : rowsFrom offsets.blockSize 0 blocks = rowsFrom offsets.blockSize 0 other :=
    Except.ok.inj ((rowsOf_eq cut.stream).symm.trans (rowsOf_eq read))
  exact ⟨read, words ▸ cut.few, words ▸ cut.small, decoded ▸ cut.inside⟩

end OffsetStreams

namespace Group

variable {group : Group} {dictionary : Dictionary}

/-- The rows that a bulk read decodes for a tuple. -/
def rowsOf (group : Group) (tuple : Nat) : Except Fault (List Nat) :=
  match group.body with
  | .ole _ offsets => offsets.rowsOf tuple
  | .rle _ runs => do
    let found ← RunStreams.runsOf runs tuple
    pure (found.flatMap Run.rows)
  | _ => .ok []

/-- The group lists the rows of each tuple in runs, or in blocks whose places are in order. -/
def ListsInOrder (group : Group) (dictionary : Dictionary) : Prop :=
  (∃ runs, group.body = .rle dictionary runs) ∨
    ∃ offsets, group.body = .ole dictionary offsets ∧ 0 < offsets.blockSize ∧
      offsets.blockSize ≤ UInt16.size ∧ ∃ blocks : Nat → List (List Nat),
        ∀ tuple, tuple < dictionary.tuples →
          offsets.streams.stream tuple = .ok (OffsetStreams.blockStream (blocks tuple)) ∧
            OffsetStreams.InOrder offsets.blockSize (blocks tuple)

theorem Accepted.exists_listing (accepted : group.Accepted)
    (order : group.ListsInOrder dictionary) : ∃ lists : Nat → List Nat,
      (∀ tuple, tuple < dictionary.tuples → group.rowsOf tuple = .ok (lists tuple)) ∧
      group.Finds dictionary (fun row => (listing lists dictionary.tuples row).head?)
        fun row => (listing lists dictionary.tuples row).getLast? := by
  obtain ⟨columns, rows, body⟩ := group
  rcases order with ⟨runs, same⟩ | ⟨offsets, same, positive, size, blocks, ordered⟩
  · cases same
    obtain ⟨found, spans⟩ := accepted.exists_spans
    refine ⟨_, fun tuple named => ?_, finds_rle (accepted.wide rfl) spans⟩
    simp only [rowsOf, (spans tuple named).runsOf]
    rfl
  · cases same
    obtain ⟨_, known⟩ := accepted.exists_cuts
    have cuts : ∀ tuple, tuple < dictionary.tuples → offsets.Cut rows tuple (blocks tuple) :=
      fun tuple named => (known tuple named).of_stream (ordered tuple named).1
    obtain ⟨found?, looked, finds⟩ :=
      finds_ole cuts (accepted.wide rfl) (Nat.ne_of_gt positive)
    have first : found? = fun row => (listing (fun tuple => OffsetStreams.rowsFrom
        offsets.blockSize 0 (blocks tuple)) dictionary.tuples row).head? := by
      funext row
      have held := tupleOf_of_inOrder cuts positive size
        (fun tuple named => (ordered tuple named).2) row
      exact Except.ok.inj ((looked row).symm.trans held)
    rw [first] at finds
    exact ⟨_, fun tuple named => OffsetStreams.rowsOf_eq (cuts tuple named).stream, finds⟩

theorem head?_eq_getLast? {list : List Nat} (single : list.length ≤ 1) :
    list.head? = list.getLast? := by
  match list with
  | [] => rfl
  | [_] => rfl
  | _ :: _ :: _ => simp at single

/-- What the two reads of such a group give at each place, and that they agree where at most one
tuple lists the row. -/
theorem first_read_last_written_of_validate (accepted : group.validate = .ok ())
    (order : group.ListsInOrder dictionary) : ∃ lists : Nat → List Nat,
      (∀ tuple, tuple < dictionary.tuples → group.rowsOf tuple = .ok (lists tuple)) ∧
      ∀ width, (∀ col ∈ group.columns, col < width) → ∃ after,
        group.decompressInto width (Array.replicate (group.rows * width) Cell.zero) = .ok after ∧
        ∀ row col, row < group.rows → col ∈ group.columns →
          group.get? row col = .ok (some (cellOf dictionary
            (listing lists dictionary.tuples row).head? (group.columns.idxOf col))) ∧
          after[row * width + col]? = some (cellOf dictionary
            (listing lists dictionary.tuples row).getLast? (group.columns.idxOf col)) ∧
          ((listing lists dictionary.tuples row).length ≤ 1 →
            group.get? row col = .ok after[row * width + col]?) := by
  have accepted := validate_eq_ok_iff.mp accepted
  obtain ⟨lists, decoded, finds⟩ := accepted.exists_listing order
  have reads := finds.reads accepted
  refine ⟨lists, decoded, fun width inside => ?_⟩
  obtain ⟨after, made, _, places⟩ := reads.decompressInto width inside
    (Array.replicate (group.rows * width) Cell.zero) Array.size_replicate
  refine ⟨after, made, fun row col inRow member => ?_⟩
  have read := reads.get? row col inRow member
  have blank : (Array.replicate (group.rows * width) Cell.zero)[row * width + col]? =
      some Cell.zero := by
    have within := Block.position_lt inRow (inside col member)
    rw [Array.getElem?_replicate, if_pos within]
  have written := (places row col inRow (inside col member)).2 member blank
  refine ⟨read, written, fun single => ?_⟩
  rw [read, written, head?_eq_getLast? single]

/-- Two tuples in blocks of four rows; both list row five. -/
def sharedRow : Group where
  columns := [0]
  rows := 6
  body := .ole ⟨#[⟨1⟩, ⟨2⟩], 1⟩ ⟨4, ⟨#[0, 4, 7], #[1, 1, 1, 1, 0, 1, 1]⟩⟩

theorem first_read_last_written_of_validate_sharedRow :
    sharedRow.validate = .ok () ∧ sharedRow.ListsInOrder ⟨#[⟨1⟩, ⟨2⟩], 1⟩ ∧
      ∃ after, sharedRow.decompressInto 1 (Array.replicate 6 Cell.zero) = .ok after ∧
        sharedRow.get? 1 0 = .ok after[1]? := by
  have accepted : sharedRow.validate = .ok () := by decide +kernel
  have order : sharedRow.ListsInOrder ⟨#[⟨1⟩, ⟨2⟩], 1⟩ := by
    refine .inr ⟨_, rfl, by decide, by decide, fun tuple => [[[1], [1]], [[], [1]]].getD tuple [],
      fun tuple named => ?_⟩
    match tuple, named with
    | 0, _ => decide +kernel
    | 1, _ => decide +kernel
  obtain ⟨lists, decoded, agree⟩ := first_read_last_written_of_validate accepted order
  obtain ⟨after, made, places⟩ := agree 1 (by decide)
  have first : lists 0 = [1, 5] :=
    Except.ok.inj ((decoded 0 (by decide)).symm.trans (by decide +kernel))
  have second : lists 1 = [5] :=
    Except.ok.inj ((decoded 1 (by decide)).symm.trans (by decide +kernel))
  have single : (listing lists 2 1).length ≤ 1 := by
    simp [listing, List.range_succ, first, second]
  exact ⟨accepted, order, after, made, (places 1 0 (by decide) (by decide)).2.2 single⟩

/-- Two tuples with a run of the same row. -/
def sharedRun : Group where
  columns := [0]
  rows := 1
  body := .rle ⟨#[⟨1⟩, ⟨2⟩], 1⟩ ⟨#[0, 2, 4], #[0, 1, 0, 1]⟩

/-- Two rows of one tuple, listed in the wrong order in their block. -/
def swappedPlaces : Group where
  columns := [0]
  rows := 2
  body := .ole ⟨#[⟨1⟩], 1⟩ ⟨4, ⟨#[0, 3], #[2, 1, 0]⟩⟩

/-- Groups that pass the check and whose two reads differ: a row is listed by two tuples of runs or
of offsets, or the places of a block are not in order. -/
theorem reads_differ_after_validate :
    (sharedRun.validate = .ok () ∧ sharedRun.get? 0 0 = .ok (some ⟨1⟩) ∧
      sharedRun.decompressInto 1 (Array.replicate 1 Cell.zero) = .ok #[⟨2⟩]) ∧
    (sharedRow.validate = .ok () ∧ sharedRow.get? 5 0 = .ok (some ⟨1⟩) ∧
      sharedRow.decompressInto 1 (Array.replicate 6 Cell.zero) =
        .ok #[Cell.zero, ⟨1⟩, Cell.zero, Cell.zero, Cell.zero, ⟨2⟩]) ∧
    swappedPlaces.validate = .ok () ∧ swappedPlaces.get? 1 0 = .ok (some Cell.zero) ∧
      swappedPlaces.decompressInto 1 (Array.replicate 2 Cell.zero) = .ok #[⟨1⟩, ⟨1⟩] := by
  decide +kernel

end Group

end PackedMatrix
