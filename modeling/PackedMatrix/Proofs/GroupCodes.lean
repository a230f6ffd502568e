import PackedMatrix.Proofs.GroupReads
import PackedMatrix.Proofs.RowIndexReads
import PackedMatrix.Proofs.RunReads

namespace PackedMatrix

namespace Group

variable {columns : List Nat} {rows : Nat} {dictionary : Dictionary}

theorem last_placements {placements : List Placement} {row tuple : Nat}
    (agree : ∀ placement ∈ placements, placement.row = row → placement.tuple = tuple)
    (present : (⟨row, tuple⟩ : Placement) ∈ placements) :
    Writes.last row (placements.map fun placement => (placement.row, placement.tuple)) =
      some tuple := by
  refine Writes.last_eq_some _ ?_ ⟨(row, tuple), List.mem_map.mpr ⟨_, present, rfl⟩, rfl⟩
  intro write member same
  obtain ⟨placement, listed, rfl⟩ := List.mem_map.mp member
  exact agree placement listed same

theorem last_placements_none {placements : List Placement} {row : Nat}
    (absent : ∀ placement ∈ placements, placement.row ≠ row) :
    Writes.last row (placements.map fun placement => (placement.row, placement.tuple)) = none := by
  apply Writes.last_eq_none
  intro write member
  obtain ⟨placement, listed, rfl⟩ := List.mem_map.mp member
  exact absent placement listed

theorem mem_placeAll {listed : List Nat} {tuple : Nat} {placement : Placement} :
    placement ∈ placeAll listed tuple ↔ placement.row ∈ listed ∧ placement.tuple = tuple := by
  rw [placeAll, List.mem_map]
  constructor
  · rintro ⟨row, member, rfl⟩
    exact ⟨member, rfl⟩
  · rintro ⟨member, rfl⟩
    exact ⟨placement.row, member, rfl⟩

theorem last_placeAll (listed : List Nat) (tuple row : Nat) :
    Writes.last row ((placeAll listed tuple).map fun placement =>
      (placement.row, placement.tuple)) = if row ∈ listed then some tuple else none := by
  by_cases member : row ∈ listed
  · rw [if_pos member]
    exact last_placements (fun placement inside _ => (mem_placeAll.mp inside).2)
      (mem_placeAll.mpr ⟨member, rfl⟩)
  · rw [if_neg member]
    apply last_placements_none
    rintro placement inside rfl
    exact member (mem_placeAll.mp inside).1

theorem codes_const (filled : 0 < dictionary.tuples) :
    (⟨columns, rows, .const dictionary⟩ : Group).Codes dictionary fun _ => some 0 := by
  refine ⟨rfl, fun _ _ _ => rfl, placeAll (List.range rows) 0, rfl, ?_, ?_⟩
  · intro placement member
    obtain ⟨inRow, tuple⟩ := mem_placeAll.mp member
    exact ⟨List.mem_range.mp inRow, by rw [tuple]; exact filled⟩
  · intro row inRow
    rw [last_placeAll, if_pos (List.mem_range.mpr inRow)]

theorem codes_ddc {codes : CodeMap} (length : codes.length = rows)
    (named : ∀ row, row < rows → ∃ code, codes.get? row = some code ∧ code < dictionary.tuples) :
    (⟨columns, rows, .ddc dictionary codes⟩ : Group).Codes dictionary codes.get? := by
  refine ⟨rfl, ?_, (List.range rows).map fun row => ⟨row, (codes.get? row).getD 0⟩, ?_, ?_, ?_⟩
  · intro row place inRow
    obtain ⟨code, read, _⟩ := named row inRow
    simp only [cellAt, read, Fault.found, bind, Except.bind, Option.elim_some]
  · rw [placements]
    simp only [length]
    apply mapM_eq_ok
    intro row member
    obtain ⟨code, read, _⟩ := named row (List.mem_range.mp member)
    simp [read, Fault.found, bind, Except.bind, pure, Except.pure]
  · intro placement member
    obtain ⟨row, listed, rfl⟩ := List.mem_map.mp member
    obtain ⟨code, read, bound⟩ := named row (List.mem_range.mp listed)
    exact ⟨List.mem_range.mp listed, by rw [read]; exact bound⟩
  · intro row inRow
    obtain ⟨code, read, _⟩ := named row inRow
    rw [read]
    refine last_placements ?_ (List.mem_map.mpr ⟨row, List.mem_range.mpr inRow, by rw [read]; rfl⟩)
    intro placement member same
    obtain ⟨other, _, rfl⟩ := List.mem_map.mp member
    have : other = row := same
    rw [this, read]
    rfl

/-- Those of so many tuples that list a row. -/
def listing (lists : Nat → List Nat) (tuples row : Nat) : List Nat :=
  (List.range tuples).filter fun tuple => (lists tuple).contains row

section Tuples

variable {lists : Nat → List Nat} {tuples : Nat}

theorem listing_succ (lists : Nat → List Nat) (tuples row : Nat) : listing lists (tuples + 1) row =
    listing lists tuples row ++ if row ∈ lists tuples then [tuples] else [] := by
  rw [listing, List.range_succ, List.filter_append, listing]
  by_cases member : row ∈ lists tuples <;> simp [member]

theorem head?_listing (lists : Nat → List Nat) (tuples row : Nat) :
    (listing lists tuples row).head? =
      (List.range' 0 tuples).find? fun tuple => (lists tuple).contains row := by
  rw [listing, List.head?_filter, List.range_eq_range']

theorem tupleRows_eq {rowsOf : Nat → Except Fault (List Nat)}
    (decoded : ∀ tuple, tuple < tuples → rowsOf tuple = .ok (lists tuple)) :
    tupleRows rowsOf tuples =
      .ok ((List.range tuples).flatMap fun tuple => placeAll (lists tuple) tuple) := by
  have steps : ∀ tuple ∈ List.range tuples, (do
      let rows ← rowsOf tuple
      pure (placeAll rows tuple) : Except Fault (List Placement)) =
        .ok (placeAll (lists tuple) tuple) := by
    intro tuple member
    rw [decoded tuple (List.mem_range.mp member)]
    rfl
  rw [tupleRows, mapM_eq_ok steps]
  simp only [bind, Except.bind, pure, Except.pure, List.flatMap_def, List.map_id_fun, id_eq]

/-- Tuples are written in order, so that the last one that lists a row stays. -/
theorem last_tupleRows (lists : Nat → List Nat) (tuples row : Nat) :
    Writes.last row (((List.range tuples).flatMap fun tuple => placeAll (lists tuple) tuple).map
      fun placement => (placement.row, placement.tuple)) = (listing lists tuples row).getLast? := by
  induction tuples with
  | zero => rfl
  | succ tuples ih =>
    rw [List.range_succ, List.flatMap_append, List.flatMap_singleton, List.map_append,
      Writes.last_append, last_placeAll, ih, listing_succ, List.getLast?_append]
    by_cases member : row ∈ lists tuples <;> simp [member]

theorem placements_listed
    (inside : ∀ tuple, tuple < tuples → ∀ row ∈ lists tuple, row < rows) :
    ∀ placement ∈ (List.range tuples).flatMap fun tuple => placeAll (lists tuple) tuple,
      placement.row < rows ∧ placement.tuple < tuples := by
  intro placement member
  obtain ⟨tuple, listed, here⟩ := List.mem_flatMap.mp member
  obtain ⟨row, same⟩ := mem_placeAll.mp here
  have named := List.mem_range.mp listed
  exact ⟨inside tuple named _ row, by rwa [same]⟩

theorem lt_of_head?_listing {row tuple : Nat}
    (h : (listing lists tuples row).head? = some tuple) : tuple < tuples :=
  List.mem_range.mp (List.mem_filter.mp (List.mem_of_head? h)).1

end Tuples

section Lists

variable {bitmap : Bitmap} {width : Nat}

/-- The lists of a bitmap are disjoint, so that the last tuple that lists a row is the only one. -/
theorem getLast?_listing (valid : bitmap.WellFormed width rows) (row : Nat) :
    (listing bitmap.list bitmap.tuples row).getLast? = bitmap.listOf? row := by
  cases last : (listing bitmap.list bitmap.tuples row).getLast? with
  | some tuple =>
    have listed := (List.mem_filter.mp (List.mem_of_getLast? last)).2
    exact ((Bitmap.listOf?_eq_some valid).mpr (List.contains_iff_mem.mp listed)).symm
  | none =>
    rw [Bitmap.listOf?_eq_find?, ← head?_listing, List.getLast?_eq_none_iff.mp last]
    rfl

/-- Placements that are decoded tuple by tuple name the tuple whose list has the row. -/
theorem placements_tupleRows (valid : bitmap.WellFormed width rows)
    {rowsOf : Nat → Except Fault (List Nat)}
    (decoded : ∀ i, i < bitmap.tuples → rowsOf i = .ok (bitmap.list i)) :
    ∃ listed, tupleRows rowsOf bitmap.tuples = .ok listed ∧
      (∀ placement ∈ listed, placement.row < rows ∧ placement.tuple < bitmap.tuples) ∧
      ∀ row, Writes.last row (listed.map fun placement => (placement.row, placement.tuple)) =
        bitmap.listOf? row :=
  ⟨_, tupleRows_eq decoded, placements_listed fun _ _ _ member => valid.row_lt member,
    fun row => (last_tupleRows _ _ row).trans (getLast?_listing valid row)⟩

section Counted

variable (wide : dictionary.width ≠ 0)

include wide

theorem cellAt_ole (offsets : OffsetStreams) (row place : Nat) :
    (⟨columns, rows, .ole dictionary offsets⟩ : Group).cellAt row place = (do
      match ← offsets.tupleOf dictionary.tuples row with
      | some tuple => tupleCell dictionary tuple place
      | none => .ok Cell.zero) := by
  rw [← OffsetStreams.tupleIn_eq wide]
  rfl

theorem placements_ole (offsets : OffsetStreams) :
    (⟨columns, rows, .ole dictionary offsets⟩ : Group).placements =
      tupleRows offsets.rowsOf dictionary.tuples := by
  simp only [placements, Dictionary.count_eq wide, bind, Except.bind]

theorem cellAt_rle (runs : RunStreams) (row place : Nat) :
    (⟨columns, rows, .rle dictionary runs⟩ : Group).cellAt row place = (do
      match ← RunStreams.tupleOf runs dictionary.tuples row with
      | some tuple => tupleCell dictionary tuple place
      | none => .ok Cell.zero) := by
  unfold cellAt
  dsimp only
  rw [Dictionary.count_eq wide]
  rfl

theorem placements_rle (runs : RunStreams) :
    (⟨columns, rows, .rle dictionary runs⟩ : Group).placements = tupleRows (fun tuple => do
      let found ← RunStreams.runsOf runs tuple
      pure (found.flatMap Run.rows)) dictionary.tuples := by
  simp only [placements, Dictionary.count_eq wide, bind, Except.bind]

end Counted

/-- A group that is read by its lists, and placed tuple by tuple, names the tuple of each list. -/
theorem codes_of_tupleRows {group : Group} (valid : bitmap.WellFormed width group.rows)
    (count : dictionary.tuples = bitmap.tuples)
    (dictionary? : group.body.dictionary? = some dictionary)
    {rowsOf : Nat → Except Fault (List Nat)}
    (decoded : ∀ i, i < bitmap.tuples → rowsOf i = .ok (bitmap.list i))
    (placed : group.placements = tupleRows rowsOf dictionary.tuples)
    (tupleOf : Nat → Except Fault (Option Nat))
    (found : ∀ row, tupleOf row = .ok (bitmap.listOf? row))
    (read : ∀ row place, group.cellAt row place = (do
      match ← tupleOf row with
      | some tuple => tupleCell dictionary tuple place
      | none => .ok Cell.zero)) : group.Codes dictionary bitmap.listOf? := by
  obtain ⟨listed, made, bounds, last⟩ := placements_tupleRows valid decoded
  rw [← count] at made bounds
  refine ⟨dictionary?, ?_, listed, placed.trans made, bounds, fun row _ => last row⟩
  intro row place _
  rw [read, found]
  cases bitmap.listOf? row <;> rfl

theorem codes_ole (wide : dictionary.width ≠ 0) (valid : bitmap.WellFormed width rows)
    (count : dictionary.tuples = bitmap.tuples) {blockSize : Nat} {offsets : OffsetStreams}
    (made : OffsetStreams.ofBitmap bitmap blockSize = .ok offsets) :
    (⟨columns, rows, .ole dictionary offsets⟩ : Group).Codes dictionary bitmap.listOf? := by
  refine codes_of_tupleRows valid count rfl
    (fun i inside => OffsetStreams.rowsOf_ofBitmap valid made inside) (placements_ole wide offsets)
    (offsets.tupleOf dictionary.tuples) (fun row => ?_) (cellAt_ole wide offsets)
  rw [count]
  exact OffsetStreams.tupleOf_ofBitmap valid made row

theorem codes_rle (wide : dictionary.width ≠ 0) (valid : bitmap.WellFormed width rows)
    (count : dictionary.tuples = bitmap.tuples) {runs : RunStreams}
    (made : RunStreams.ofBitmap bitmap = .ok runs) :
    (⟨columns, rows, .rle dictionary runs⟩ : Group).Codes dictionary bitmap.listOf? := by
  have decoded : ∀ i, i < bitmap.tuples → (do
      let found ← RunStreams.runsOf runs i
      pure (found.flatMap Run.rows)) = Except.ok (bitmap.list i) := by
    intro i inside
    rw [RunStreams.runsOf_ofBitmap made inside, Bitmap.list_eq_getElem inside]
    exact congrArg Except.ok (RunStreams.flatMap_runsOf valid inside)
  refine codes_of_tupleRows valid count rfl decoded (placements_rle wide runs)
    (RunStreams.tupleOf runs dictionary.tuples) (fun row => ?_) (cellAt_rle wide runs)
  rw [count]
  exact RunStreams.tupleOf_ofBitmap valid made row

end Lists

section Sparse

variable {index : RowIndex} {listed : List Nat} {place : Nat → Nat}

/-- The code of a listed row, from the codes in the order of the rows. -/
def listedCode? (listed codes : List Nat) (row : Nat) : Option Nat :=
  if row ∈ listed then codes[listed.idxOf row]? else none

/-- A lookup finds the place of a row among the listed ones, by the low bits of its number. -/
theorem ordinal?_eq (lists : index.Lists listed place) (sorted : listed.Pairwise (· < ·))
    (row : Nat) : ordinal? index row = .ok (if row % UInt32.size ∈ listed then
      some (listed.idxOf (row % UInt32.size)) else none) := by
  rw [ordinal?, lists.ordinal?_eq sorted]

theorem mod_of_short (short : rows ≤ maxIndex) {row : Nat} (inRow : row < rows) :
    row % UInt32.size = row := by
  rw [maxIndex] at short
  rw [UInt32.size]
  exact Nat.mod_eq_of_lt (by omega)

theorem codedRows_eq (lists : index.Lists listed place) {map : CodeMap} {codes : List Nat}
    (length : codes.length = listed.length)
    (read : ∀ i (inside : i < codes.length), map.get? i = some codes[i]) :
    codedRows index map =
      .ok ((listed.zip codes).map fun pair => ⟨pair.1, pair.2⟩) := by
  have steps : ∀ entry ∈ listed.zipIdx, (do
      let code ← Fault.found (map.get? entry.2)
      pure ⟨entry.1, code⟩ : Except Fault Placement) =
        .ok ⟨entry.1, codes.getD entry.2 0⟩ := by
    rintro ⟨row, i⟩ member
    obtain ⟨inside, _⟩ := List.mem_zipIdx' member
    have inside' : i < codes.length := by omega
    simp only [read i inside', Fault.found, bind, Except.bind, pure, Except.pure,
      List.getD_eq_getElem?_getD, List.getElem?_eq_getElem inside', Option.getD_some]
  rw [codedRows, lists.rows_eq]
  refine (mapM_eq_ok steps).trans ?_
  congr 1
  refine List.ext_getElem (by simp [length]) ?_
  intro i first second
  have inside : i < codes.length := by simpa [length] using first
  simp [List.getD_eq_getElem?_getD, inside]

theorem last_codedRows (sorted : listed.Pairwise (· < ·)) {codes : List Nat}
    (length : codes.length = listed.length) (row : Nat) :
    Writes.last row (((listed.zip codes).map fun pair => (⟨pair.1, pair.2⟩ : Placement)).map
      fun placement => (placement.row, placement.tuple)) = listedCode? listed codes row := by
  by_cases member : row ∈ listed
  · have inside : listed.idxOf row < listed.length := List.idxOf_lt_length_iff.mpr member
    have here : listed[listed.idxOf row] = row := List.getElem_idxOf inside
    have inside' : listed.idxOf row < codes.length := by omega
    rw [listedCode?, if_pos member, List.getElem?_eq_getElem inside']
    apply last_placements
    · intro placement inList same
      obtain ⟨pair, zipped, rfl⟩ := List.mem_map.mp inList
      obtain ⟨i, bound, rfl⟩ := List.mem_iff_getElem.mp zipped
      rw [List.length_zip] at bound
      simp only [List.getElem_zip] at same ⊢
      have index := Increasing.idxOf_getElem sorted (show i < listed.length by omega)
      rw [same] at index
      simp only [index]
    · refine List.mem_map.mpr ⟨(row, codes[listed.idxOf row]), ?_, rfl⟩
      refine List.mem_iff_getElem.mpr ⟨listed.idxOf row, by rw [List.length_zip]; omega, ?_⟩
      rw [List.getElem_zip, here]
  · rw [listedCode?, if_neg member]
    apply last_placements_none
    intro placement inList same
    obtain ⟨pair, zipped, rfl⟩ := List.mem_map.mp inList
    exact member (same ▸ (List.of_mem_zip zipped).1)

theorem listedCode?_eq_some_of_mem {codes : List Nat} (length : codes.length = listed.length)
    {row : Nat} (member : row ∈ listed) : ∃ code, listedCode? listed codes row = some code := by
  have inside : listed.idxOf row < codes.length := by
    rw [length]
    exact List.idxOf_lt_length_iff.mpr member
  exact ⟨codes[listed.idxOf row], by rw [listedCode?, if_pos member,
    List.getElem?_eq_getElem inside]⟩

/-- A cell of a listed row with a code, or what other rows hold. -/
theorem cell_of_ordinal (lists : index.Lists listed place) (sorted : listed.Pairwise (· < ·))
    {map : CodeMap} {codes : List Nat} (length : codes.length = listed.length)
    (read : ∀ i (inside : i < codes.length), map.get? i = some codes[i]) (row : Nat)
    (hit : Nat → Except Fault Cell) (miss : Except Fault Cell) :
    (do
      match ← ordinal? index row with
      | some ordinal =>
        let code ← Fault.found (map.get? ordinal)
        hit code
      | none => miss) = (listedCode? listed codes (row % UInt32.size)).elim miss hit := by
  rw [ordinal?_eq lists sorted, listedCode?]
  by_cases member : row % UInt32.size ∈ listed
  · have inside : listed.idxOf (row % UInt32.size) < codes.length := by
      rw [length]
      exact List.idxOf_lt_length_iff.mpr member
    simp only [if_pos member, bind, Except.bind, read _ inside, Fault.found,
      List.getElem?_eq_getElem inside, Option.elim_some]
  · simp only [if_neg member, bind, Except.bind, Option.elim_none]

theorem mem_of_listedCode? {codes : List Nat} {row code : Nat}
    (h : listedCode? listed codes row = some code) : code ∈ codes := by
  unfold listedCode? at h
  split at h
  next => exact List.mem_of_getElem? h
  next => cases h

section Finds

variable (lists : index.Lists listed place) (sorted : listed.Pairwise (· < ·))
  (inside : ∀ row ∈ listed, row < rows)

include lists sorted inside

theorem finds_sdcZeros {map : CodeMap} {codes : List Nat} (length : codes.length = listed.length)
    (read : ∀ i (bound : i < codes.length), map.get? i = some codes[i])
    (named : ∀ code ∈ codes, code < dictionary.tuples) :
    (⟨columns, rows, .sdcZeros dictionary index map⟩ : Group).Finds dictionary
      (fun row => listedCode? listed codes (row % UInt32.size)) (listedCode? listed codes) := by
  refine ⟨rfl, ?_, fun _ tuple _ found => named tuple (mem_of_listedCode? found), _,
    codedRows_eq lists length read, ?_, fun row _ => last_codedRows sorted length row⟩
  · intro row place _
    exact cell_of_ordinal lists sorted length read row
      (fun code => tupleCell dictionary code place) (.ok Cell.zero)
  · intro placement member
    obtain ⟨pair, zipped, rfl⟩ := List.mem_map.mp member
    exact ⟨inside _ (List.of_mem_zip zipped).1, named _ (List.of_mem_zip zipped).2⟩

theorem finds_sdc {map : CodeMap} {codes : List Nat} (length : codes.length = listed.length)
    (read : ∀ i (bound : i < codes.length), map.get? i = some codes[i])
    (named : ∀ code ∈ codes, code < dictionary.tuples) (filled : 0 < dictionary.tuples) :
    (⟨columns, rows, .sdc dictionary index map⟩ : Group).Finds dictionary
      (fun row => some ((listedCode? listed codes (row % UInt32.size)).getD
        (dictionary.tuples - 1)))
      fun row => some ((listedCode? listed codes row).getD (dictionary.tuples - 1)) := by
  refine ⟨rfl, ?_, ?_, placeAll (List.range rows) (dictionary.tuples - 1) ++
    (listed.zip codes).map fun pair => ⟨pair.1, pair.2⟩, ?_, ?_, ?_⟩
  · intro row place _
    refine (cell_of_ordinal lists sorted length read row
      (fun code => tupleCell dictionary code place) _).trans ?_
    rw [Dictionary.count_eq_of_pos filled]
    cases listedCode? listed codes (row % UInt32.size) <;> rfl
  · intro row tuple _ found
    cases code : listedCode? listed codes (row % UInt32.size) with
    | none =>
      rw [code, Option.getD_none] at found
      cases found
      omega
    | some other =>
      rw [code, Option.getD_some] at found
      cases found
      exact named _ (mem_of_listedCode? code)
  · rw [placements]
    simp only [codedRows_eq lists length read, Dictionary.count_eq_of_pos filled]
    rfl
  · intro placement member
    rcases List.mem_append.mp member with all | coded
    · obtain ⟨inRow, tuple⟩ := mem_placeAll.mp all
      exact ⟨List.mem_range.mp inRow, by rw [tuple]; omega⟩
    · obtain ⟨pair, zipped, rfl⟩ := List.mem_map.mp coded
      exact ⟨inside _ (List.of_mem_zip zipped).1, named _ (List.of_mem_zip zipped).2⟩
  · intro row inRow
    rw [List.map_append, Writes.last_append, last_codedRows sorted length, last_placeAll,
      if_pos (List.mem_range.mpr inRow), Option.or_some]

theorem finds_sdcSingleZeros (filled : 0 < dictionary.tuples) :
    (⟨columns, rows, .sdcSingleZeros dictionary index⟩ : Group).Finds dictionary
      (fun row => if row % UInt32.size ∈ listed then some 0 else none)
      fun row => if row ∈ listed then some 0 else none := by
  refine ⟨rfl, ?_, ?_, placeAll listed 0, ?_, ?_, fun row _ => last_placeAll listed 0 row⟩
  · intro row place _
    simp only [cellAt, bind, Except.bind, ordinal?_eq lists sorted]
    by_cases member : row % UInt32.size ∈ listed
    · simp only [if_pos member, Option.elim_some]
    · simp only [if_neg member, Option.elim_none]
  · intro row tuple _ found
    split at found
    next =>
      cases found
      exact filled
    next => cases found
  · rw [placements]
    simp only [lists.rows_eq]
    rfl
  · intro placement member
    obtain ⟨inRow, tuple⟩ := mem_placeAll.mp member
    exact ⟨inside _ inRow, by rw [tuple]; exact filled⟩

theorem finds_sdcSingle (filled : 0 < dictionary.tuples) :
    (⟨columns, rows, .sdcSingle dictionary index⟩ : Group).Finds dictionary
      (fun row => some (if row % UInt32.size ∈ listed then 0 else dictionary.tuples - 1))
      fun row => some (if row ∈ listed then 0 else dictionary.tuples - 1) := by
  refine ⟨rfl, ?_, ?_, placeAll (List.range rows) (dictionary.tuples - 1) ++ placeAll listed 0, ?_,
    ?_, ?_⟩
  · intro row place _
    simp only [cellAt, bind, Except.bind, ordinal?_eq lists sorted,
      Dictionary.count_eq_of_pos filled]
    by_cases member : row % UInt32.size ∈ listed
    · simp only [if_pos member, Option.elim_some]
    · simp only [if_neg member, Option.elim_some]
  · intro row tuple _ found
    cases found
    split <;> omega
  · rw [placements]
    simp only [lists.rows_eq, Dictionary.count_eq_of_pos filled]
    rfl
  · intro placement member
    rcases List.mem_append.mp member with all | single
    · obtain ⟨inRow, tuple⟩ := mem_placeAll.mp all
      exact ⟨List.mem_range.mp inRow, by rw [tuple]; omega⟩
    · obtain ⟨inRow, tuple⟩ := mem_placeAll.mp single
      exact ⟨inside _ inRow, by rw [tuple]; exact filled⟩
  · intro row inRow
    rw [List.map_append, Writes.last_append, last_placeAll, last_placeAll,
      if_pos (List.mem_range.mpr inRow)]
    by_cases member : row ∈ listed <;> simp [member]

variable (short : rows ≤ maxIndex)

include short

theorem codes_sdcZeros {map : CodeMap} {codes : List Nat} (length : codes.length = listed.length)
    (read : ∀ i (bound : i < codes.length), map.get? i = some codes[i])
    (named : ∀ code ∈ codes, code < dictionary.tuples) :
    (⟨columns, rows, .sdcZeros dictionary index map⟩ : Group).Codes dictionary
      (listedCode? listed codes) :=
  (finds_sdcZeros lists sorted inside length read named).codes fun _ inRow => by
    rw [mod_of_short short inRow]

theorem codes_sdc {map : CodeMap} {codes : List Nat} (length : codes.length = listed.length)
    (read : ∀ i (bound : i < codes.length), map.get? i = some codes[i])
    (named : ∀ code ∈ codes, code < dictionary.tuples) (filled : 0 < dictionary.tuples) :
    (⟨columns, rows, .sdc dictionary index map⟩ : Group).Codes dictionary
      fun row => some ((listedCode? listed codes row).getD (dictionary.tuples - 1)) :=
  (finds_sdc lists sorted inside length read named filled).codes fun _ inRow => by
    rw [mod_of_short short inRow]

theorem codes_sdcSingleZeros (filled : 0 < dictionary.tuples) :
    (⟨columns, rows, .sdcSingleZeros dictionary index⟩ : Group).Codes dictionary
      fun row => if row ∈ listed then some 0 else none :=
  (finds_sdcSingleZeros lists sorted inside filled).codes fun _ inRow => by
    rw [mod_of_short short inRow]

theorem codes_sdcSingle (filled : 0 < dictionary.tuples) :
    (⟨columns, rows, .sdcSingle dictionary index⟩ : Group).Codes dictionary
      fun row => some (if row ∈ listed then 0 else dictionary.tuples - 1) :=
  (finds_sdcSingle lists sorted inside filled).codes fun _ inRow => by
    rw [mod_of_short short inRow]

end Finds

end Sparse

end Group

end PackedMatrix
