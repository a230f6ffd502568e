import PackedMatrix.Proofs.MovedTuples

namespace PackedMatrix

theorem isZeroTuple_replicate (width : Nat) :
    isZeroTuple (List.replicate width Cell.zero) = true := by
  rw [isZeroTuple, List.all_replicate]
  simp [Cell.isZero_iff]

namespace Bitmap

/-- Tuples that are not zero, no two of which are the same. -/
structure Distinct (bitmap : Bitmap) : Prop where
  nonzero : ∀ i, i < bitmap.tuples → isZeroTuple (bitmap.tuple i) = false
  apart : ∀ i, i < bitmap.tuples → ∀ j, j < bitmap.tuples → i ≠ j →
    bitmap.tuple i ≠ bitmap.tuple j

/-- The rows that hold a tuple. -/
def rowsHolding (bitmap : Bitmap) (rows : Nat) (tuple : List Cell) : List Nat :=
  (List.range rows).filter fun row => bitmap.rowTuple row = tuple

theorem mem_rowsHolding {bitmap : Bitmap} {rows row : Nat} {tuple : List Cell} :
    row ∈ bitmap.rowsHolding rows tuple ↔ row < rows ∧ bitmap.rowTuple row = tuple := by
  rw [rowsHolding, List.mem_filter, List.mem_range, decide_eq_true_eq]

theorem length_rowsNotHolding (bitmap : Bitmap) (rows : Nat) (tuple : List Cell) :
    ((List.range rows).filter fun row => bitmap.rowTuple row ≠ tuple).length =
      rows - (bitmap.rowsHolding rows tuple).length := by
  have split := (List.range rows).length_eq_length_filter_add fun row =>
    decide (bitmap.rowTuple row = tuple)
  rw [List.length_range] at split
  simp only [rowsHolding, ne_eq, decide_not]
  omega

/-- The zero tuple, unless more rows hold the tuple with the given number. -/
def defaultTuple (bitmap : Bitmap) (rows frequent : Nat) : List Cell :=
  if (bitmap.list frequent).length ≤ bitmap.zeros rows then
    List.replicate bitmap.width Cell.zero
  else bitmap.tuple frequent

section Distinct

variable {bitmap : Bitmap} {columns : List Nat} {rows : Nat}
  (valid : bitmap.WellFormed columns.length rows) (distinct : bitmap.Distinct)

include valid distinct

theorem rowTuple_eq_zero_iff {row : Nat} :
    bitmap.rowTuple row = List.replicate bitmap.width Cell.zero ↔ row ∉ bitmap.lists.flatten := by
  constructor
  · intro zero member
    obtain ⟨i, listed⟩ := mem_flatten_iff.mp member
    have nonzero := distinct.nonzero i (lt_tuples_of_mem_list listed)
    rw [← rowTuple_of_mem_list valid listed, zero, isZeroTuple_replicate] at nonzero
    cases nonzero
  · exact rowTuple_of_not_listed

theorem rowTuple_eq_tuple_iff {i row : Nat} (bound : i < bitmap.tuples) :
    bitmap.rowTuple row = bitmap.tuple i ↔ row ∈ bitmap.list i := by
  refine ⟨fun same => ?_, rowTuple_of_mem_list valid⟩
  by_cases member : row ∈ bitmap.lists.flatten
  · obtain ⟨j, listed⟩ := mem_flatten_iff.mp member
    by_cases here : i = j
    · rwa [here]
    · rw [rowTuple_of_mem_list valid listed] at same
      exact absurd same.symm (distinct.apart i bound j (lt_tuples_of_mem_list listed) here)
  · have nonzero := distinct.nonzero i bound
    rw [← same, rowTuple_of_not_listed member, isZeroTuple_replicate] at nonzero
    cases nonzero

theorem rowsHolding_tuple {i : Nat} (bound : i < bitmap.tuples) :
    bitmap.rowsHolding rows (bitmap.tuple i) = bitmap.list i := by
  refine Increasing.eq_of_mem_iff (List.pairwise_lt_range.filter _) (valid.increasing_list i) ?_
  intro row
  rw [mem_rowsHolding, rowTuple_eq_tuple_iff valid distinct bound]
  exact ⟨fun both => both.2, fun member => ⟨valid.row_lt member, member⟩⟩

theorem length_rowsHolding_zero :
    (bitmap.rowsHolding rows (List.replicate bitmap.width Cell.zero)).length =
      bitmap.zeros rows := by
  have others : bitmap.rowsHolding rows (List.replicate bitmap.width Cell.zero) =
      (List.range rows).filter fun row => !bitmap.lists.flatten.contains row := by
    apply List.filter_congr
    intro row _
    rw [Bool.eq_iff_iff, decide_eq_true_eq, rowTuple_eq_zero_iff valid distinct, Bool.not_eq_true',
      ← Bool.not_eq_true, List.contains_iff_mem]
  have all := valid.flatten_append_perm.length_eq
  rw [List.length_append, List.length_range, ← others, ← offsets_eq] at all
  rw [zeros]
  omega

variable {frequent : Nat} (largest : IsLargest bitmap.lists frequent)

include largest

/-- The default tuple is held by as many rows as there are zero rows or members of the longest
list. -/
theorem length_rowsHolding_default :
    (bitmap.rowsHolding rows (bitmap.defaultTuple rows frequent)).length =
      max (bitmap.zeros rows) (bitmap.list frequent).length := by
  rw [defaultTuple]
  split
  next most => rw [length_rowsHolding_zero valid distinct, Nat.max_eq_left most]
  next few =>
    rw [rowsHolding_tuple valid distinct largest.inside,
      Nat.max_eq_right (Nat.le_of_not_le few)]

theorem length_rowsHolding_le (tuple : List Cell) : (bitmap.rowsHolding rows tuple).length ≤
    max (bitmap.zeros rows) (bitmap.list frequent).length := by
  cases held : bitmap.rowsHolding rows tuple with
  | nil => exact Nat.zero_le _
  | cons row rest =>
    have member : row ∈ bitmap.rowsHolding rows tuple := held ▸ List.mem_cons_self
    rw [← held]
    obtain ⟨_, rfl⟩ := mem_rowsHolding.mp member
    by_cases listed : row ∈ bitmap.lists.flatten
    · obtain ⟨i, here⟩ := mem_flatten_iff.mp listed
      have bound := lt_tuples_of_mem_list here
      have most := largest.longest i bound
      rw [← list_eq_getElem bound, ← list_eq_getElem largest.inside] at most
      rw [rowTuple_of_mem_list valid here, rowsHolding_tuple valid distinct bound]
      exact Nat.le_trans most (Nat.le_max_right _ _)
    · rw [rowTuple_of_not_listed listed, length_rowsHolding_zero valid distinct]
      exact Nat.le_max_left _ _

end Distinct

end Bitmap

/-- The tuple of the rows that a sparse body does not list. -/
def GroupBody.unlistedTuple? : GroupBody → Option (List Cell)
  | sdc dictionary _ _ => dictionary.tuple? (dictionary.tuples - 1)
  | sdcSingle dictionary _ => dictionary.tuple? (dictionary.tuples - 1)
  | sdcZeros dictionary _ _ => some (List.replicate dictionary.width Cell.zero)
  | sdcSingleZeros dictionary _ => some (List.replicate dictionary.width Cell.zero)
  | _ => none

namespace SparseShape

theorem choose_of_single {tuples zeroRows largest : Nat} :
    (choose tuples zeroRows largest = .singleZeros ∨ choose tuples zeroRows largest = .single) ↔
      tuples = 1 := by
  unfold choose
  split <;> split <;> simp_all

theorem choose_of_zeros {tuples zeroRows largest : Nat} :
    (choose tuples zeroRows largest = .singleZeros ∨ choose tuples zeroRows largest = .zeros) ↔
      largest ≤ zeroRows := by
  unfold choose
  split <;> split <;> simp_all

section Listed

variable {bitmap : Bitmap} {columns : List Nat} {rows frequent : Nat}
  (valid : bitmap.WellFormed columns.length rows)

theorem Encoded.index? {shape : SparseShape} {body : GroupBody}
    (encoded : Encoded bitmap rows frequent shape body) :
    body.index? = some (.ofRows (shape.explicitRows bitmap rows frequent)) := by
  cases encoded <;> rfl

/-- There are codes in the shapes of several tuples, one for each listed row. -/
theorem Encoded.codes? {shape : SparseShape} {body : GroupBody}
    (encoded : Encoded bitmap rows frequent shape body) :
    (body.codes? = none ↔ shape = .singleZeros ∨ shape = .single) ∧
      ∀ codes ∈ body.codes?, codes.length = (shape.explicitRows bitmap rows frequent).length := by
  cases encoded with
  | singleZeros => simp [GroupBody.codes?]
  | single moved moving => simp [GroupBody.codes?]
  | zeros codes length named => simp [GroupBody.codes?, CodeMap.length_ofList, length]
  | general moved codes moving length named =>
    simp [GroupBody.codes?, CodeMap.length_ofList, length]

include valid

/-- The default of a body is the default of its bitmap. -/
theorem Encoded.unlistedTuple?_eq (nonempty : columns ≠ []) {body : GroupBody}
    (encoded : Encoded bitmap rows frequent
      (choose bitmap.tuples (bitmap.zeros rows) (bitmap.list frequent).length) body) :
    body.unlistedTuple? = some (bitmap.defaultTuple rows frequent) := by
  have positive : 0 < columns.length := List.length_pos_iff.mpr nonempty
  have zeros := @choose_of_zeros bitmap.tuples (bitmap.zeros rows) (bitmap.list frequent).length
  have last : ∀ moved,
      (Dictionary.ofBitmap bitmap).moveFrequentToLast bitmap rows frequent = .ok moved →
      ¬ (bitmap.list frequent).length ≤ bitmap.zeros rows →
      moved.dictionary.tuple? (moved.dictionary.tuples - 1) =
        some (bitmap.defaultTuple rows frequent) := by
    intro moved moving few
    obtain ⟨inside, arranged⟩ := Dictionary.arranged_of_moveFrequentToLast
      (Dictionary.holds_ofBitmap valid) positive moving
    have found := arranged.tuple?_defaultCode positive inside
    rwa [if_pos (by omega), Dictionary.getElem_tuplesOf,
      show bitmap.tuple frequent = bitmap.defaultTuple rows frequent from (if_neg few).symm]
      at found
  rw [Bitmap.defaultTuple] at last ⊢
  generalize choose bitmap.tuples (bitmap.zeros rows) (bitmap.list frequent).length = shape
    at encoded zeros
  cases encoded with
  | singleZeros =>
    rw [if_pos (zeros.mp (.inl rfl))]
    rfl
  | single moved moving => exact last moved moving fun most => by simpa using zeros.mpr most
  | zeros codes length named =>
    rw [if_pos (zeros.mp (.inr rfl))]
    rfl
  | general moved codes moving length named =>
    exact last moved moving fun most => by simpa using zeros.mpr most

variable (distinct : bitmap.Distinct) (largest : Bitmap.IsLargest bitmap.lists frequent)

include distinct largest

theorem mem_explicitRows_choose_iff {row : Nat} :
    row ∈ (choose bitmap.tuples (bitmap.zeros rows) (bitmap.list frequent).length).explicitRows
        bitmap rows frequent ↔
      row < rows ∧ bitmap.rowTuple row ≠ bitmap.defaultTuple rows frequent := by
  have single : bitmap.tuples = 1 → frequent = 0 := by
    intro only
    have inside := largest.inside
    rw [Bitmap.tuples] at only
    omega
  have ofZero : (bitmap.list frequent).length ≤ bitmap.zeros rows →
      (bitmap.rowTuple row ≠ bitmap.defaultTuple rows frequent ↔ row ∈ bitmap.lists.flatten) := by
    intro most
    rw [Bitmap.defaultTuple, if_pos most, Ne, Bitmap.rowTuple_eq_zero_iff valid distinct,
      Decidable.not_not]
  have ofFrequent : ¬ (bitmap.list frequent).length ≤ bitmap.zeros rows →
      (bitmap.rowTuple row ≠ bitmap.defaultTuple rows frequent ↔ row ∉ bitmap.list frequent) := by
    intro few
    rw [Bitmap.defaultTuple, if_neg few, Ne,
      Bitmap.rowTuple_eq_tuple_iff valid distinct largest.inside]
  have listed : row ∈ bitmap.lists.flatten → row < rows := by
    intro member
    obtain ⟨i, here⟩ := Bitmap.mem_flatten_iff.mp member
    exact valid.row_lt here
  unfold choose
  split
  next only =>
    obtain rfl := single only
    split
    next most =>
      rw [ofZero most, and_iff_right_of_imp listed, Bitmap.mem_flatten_iff]
      constructor
      · exact fun here => ⟨0, here⟩
      · rintro ⟨i, here⟩
        have bound := Bitmap.lt_tuples_of_mem_list here
        obtain rfl : i = 0 := by omega
        exact here
    next few =>
      rw [ofFrequent few]
      exact mem_complement (valid.increasing_list 0)
  next =>
    split
    next most =>
      rw [ofZero most, and_iff_right_of_imp listed]
      exact mem_covered valid
    next few =>
      rw [ofFrequent few]
      exact mem_complement_iff valid

/-- As many rows are listed as do not hold the default. -/
theorem length_explicitRows_choose :
    ((choose bitmap.tuples (bitmap.zeros rows) (bitmap.list frequent).length).explicitRows
        bitmap rows frequent).length =
      rows - max (bitmap.zeros rows) (bitmap.list frequent).length := by
  rw [← Bitmap.length_rowsHolding_default valid distinct largest, ← Bitmap.length_rowsNotHolding]
  congr 1
  refine Increasing.eq_of_mem_iff (increasing_explicitRows valid _ _)
    (List.pairwise_lt_range.filter _) fun row => ?_
  rw [mem_explicitRows_choose_iff valid distinct largest, List.mem_filter, List.mem_range,
    decide_eq_true_eq]

end Listed

section Reordered

variable {bitmap ordered : Bitmap} {columns : List Nat} {rows frequent : Nat}
  (valid : bitmap.WellFormed columns.length rows)
  (largest : Bitmap.IsLargest bitmap.lists frequent)
  (order : ordered = bitmap ∨ ordered = bitmap.sortByFrequency)

include valid largest order

/-- Sorted by frequency or not, a bitmap gets the same shape, lists the same rows and has the same
default. -/
theorem exists_place : ∃ place, ordered.WellFormed columns.length rows ∧
    Bitmap.IsLargest ordered.lists place ∧
    choose ordered.tuples (ordered.zeros rows) (ordered.list place).length =
      choose bitmap.tuples (bitmap.zeros rows) (bitmap.list frequent).length ∧
    (choose bitmap.tuples (bitmap.zeros rows) (bitmap.list frequent).length).explicitRows
        ordered rows place =
      (choose bitmap.tuples (bitmap.zeros rows) (bitmap.list frequent).length).explicitRows
        bitmap rows frequent ∧
    ordered.defaultTuple rows place = bitmap.defaultTuple rows frequent := by
  rcases order with rfl | rfl
  · exact ⟨frequent, valid, largest, rfl, rfl, rfl⟩
  · have filled : bitmap.lists ≠ [] := List.ne_nil_of_length_pos (Nat.zero_lt_of_lt largest.inside)
    have perm := bitmap.frequencyOrder_perm
    obtain ⟨front, list⟩ := Bitmap.isLargest_sortByFrequency largest
    obtain ⟨rest, first⟩ := Bitmap.head_frequencyOrder largest
    have tuple := Bitmap.tuple_renumber valid perm (i := 0) (by rw [first]; exact Nat.succ_pos _)
    have tuples := Bitmap.tuples_renumber perm
    have zeros : (bitmap.renumber bitmap.frequencyOrder).zeros rows = bitmap.zeros rows :=
      Bitmap.zeros_renumber perm
    have width : (bitmap.renumber bitmap.frequencyOrder).width = bitmap.width := rfl
    simp only [first, List.getElem_cons_zero] at tuple
    rw [← first, ← Bitmap.sortByFrequency_eq filled] at tuple
    rw [← Bitmap.sortByFrequency_eq filled] at tuples zeros width
    refine ⟨0, valid.sortByFrequency, front, by rw [tuples, zeros, list], ?_, ?_⟩
    · exact CostProfile.explicitRows_sortByFrequency largest _ choose_of_single.mp
    · rw [Bitmap.defaultTuple, Bitmap.defaultTuple, zeros, list, width, tuple]

end Reordered

/-- Sparse coding of distinct tuples succeeds, sorted by frequency or not, and lists the rows that
are predicted for the bitmap: those that do not hold the default. There are as many of them as rows
outside the zero rows or outside the longest list, whichever leaves fewer, and no other default
would leave fewer. Codes are kept exactly for several tuples, one for each listed row. -/
theorem encode_lists_fewest {bitmap ordered : Bitmap} {columns : List Nat} {rows : Nat}
    (accepted : bitmap.validate columns rows = .ok ()) (filled : bitmap.lists ≠ [])
    (distinct : bitmap.Distinct) (short : rows ≤ maxIndex)
    (order : ordered = bitmap ∨ ordered = bitmap.sortByFrequency) :
    ∃ shape frequent place body index default,
      let listed := shape.explicitRows bitmap rows frequent
      let largest := (bitmap.list frequent).length
      forBitmap? bitmap rows = some (shape, frequent) ∧
      (∀ list ∈ bitmap.lists, list.length ≤ largest) ∧
      forBitmap? ordered rows = some (shape, place) ∧
      shape.explicitRows ordered rows place = listed ∧
      encode ordered rows = .ok body ∧ body.index? = some index ∧ index.rows = .ok listed ∧
      listed.length = rows - max (bitmap.zeros rows) largest ∧
      body.unlistedTuple? = some default ∧
      default = (if bitmap.zeros rows ≥ largest then List.replicate columns.length Cell.zero
        else bitmap.tuple frequent) ∧
      (∀ row, row ∈ listed ↔ row < rows ∧ bitmap.rowTuple row ≠ default) ∧
      (∀ other, listed.length ≤
        ((List.range rows).filter fun row => bitmap.rowTuple row ≠ other).length) ∧
      (body.codes?.isSome ↔ bitmap.tuples > 1) ∧
      ∀ codes ∈ body.codes?, codes.length = listed.length := by
  have valid := (Bitmap.validate_eq_ok_iff.mp accepted).2 filled
  have some_ : 0 < bitmap.tuples := List.length_pos_iff.mpr filled
  have nonempty : columns ≠ [] := by
    rintro rfl
    have nonzero := distinct.nonzero 0 some_
    rw [List.eq_nil_of_length_eq_zero (valid.length_tuple some_)] at nonzero
    cases nonzero
  obtain ⟨frequent, largest⟩ := Bitmap.exists_isLargest filled
  obtain ⟨place, valid', largest', shape, rowsOf, default⟩ := exists_place valid largest order
  obtain ⟨body, made⟩ := exists_encode valid' (List.length_pos_iff.mpr nonempty)
    (List.ne_nil_of_length_pos (Nat.zero_lt_of_lt largest'.inside))
  obtain ⟨place', length, found, encoded⟩ := encode_eq_ok valid' made
  obtain ⟨rfl, rfl⟩ : place = place' ∧ (ordered.list place).length = length := by
    rw [Bitmap.largest?_eq_of_isLargest largest'] at found
    cases found
    exact ⟨rfl, rfl⟩
  have unlisted := encoded.unlistedTuple?_eq valid' nonempty
  rw [shape] at encoded
  obtain ⟨single, counted⟩ := encoded.codes?
  have indexed := encoded.index?
  rw [rowsOf] at indexed counted
  rw [choose_of_single] at single
  obtain ⟨_, lists⟩ := Group.lists_explicitRows valid short _ frequent
  have count := length_explicitRows_choose valid distinct largest
  refine ⟨_, frequent, place, body, _, _, ?_, ?_, ?_, rowsOf, made, indexed, lists.rows_eq, count,
    unlisted.trans (congrArg some default), ?_, ?_, ?_, ?_, counted⟩
  · rw [forBitmap?, Bitmap.largest?_eq_of_isLargest largest, Option.map_some]
  · intro list member
    obtain ⟨i, bound, rfl⟩ := List.mem_iff_getElem.mp member
    rw [Bitmap.list_eq_getElem largest.inside]
    exact largest.longest i bound
  · rw [forBitmap?, Bitmap.largest?_eq_of_isLargest largest', Option.map_some, shape]
  · rw [← valid.width, Bitmap.defaultTuple]
  · exact fun row => mem_explicitRows_choose_iff valid distinct largest
  · intro other
    rw [count, Bitmap.length_rowsNotHolding]
    exact Nat.sub_le_sub_left (Bitmap.length_rowsHolding_le valid distinct largest other) rows
  · rw [← Option.ne_none_iff_isSome, Ne, single]
    omega

/-- Two tuples are held by two rows each, one of them a negative zero, and two rows by others. -/
def tiedTuples : Bitmap where
  width := 1
  values := #[⟨0x3ff0000000000000⟩, ⟨0x8000000000000000⟩, ⟨0x4000000000000000⟩]
  lists := [[2], [0, 3], [1, 4]]

theorem encode_lists_fewest_tiedTuples : ∃ body index,
    encode tiedTuples.sortByFrequency 6 = .ok body ∧ body.index? = some index ∧
      index.rows = .ok [1, 2, 4, 5] ∧ body.unlistedTuple? = some [⟨0x8000000000000000⟩] ∧
      tiedTuples.rowTuple 5 = [Cell.zero] ∧ body.codes?.isSome := by
  have fit : tiedTuples.WellFormed 1 6 := by
    refine ⟨rfl, rfl, ?_, ?_, ?_, ?_⟩ <;> simp [tiedTuples]
  have distinct : tiedTuples.Distinct := ⟨by decide, by decide⟩
  obtain ⟨shape, frequent, _, body, index, default, chosen, _, _, _, made, indexed, rows, _,
    unlisted, value, _, _, codes, _⟩ :=
    @encode_lists_fewest tiedTuples tiedTuples.sortByFrequency [0] 6
      (Bitmap.WellFormed.validate fit) (by decide) distinct (by decide) (.inr rfl)
  have general : forBitmap? tiedTuples 6 = some (.general, 1) := by decide
  obtain ⟨rfl, rfl⟩ := Prod.mk.inj (Option.some.inj (general.symm.trans chosen))
  refine ⟨body, index, made, indexed, rows, ?_, by decide, codes.mpr (by decide)⟩
  rw [unlisted, value]
  decide

end SparseShape

end PackedMatrix
