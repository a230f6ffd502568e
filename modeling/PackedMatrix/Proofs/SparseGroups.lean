import PackedMatrix.Proofs.Encodings

namespace PackedMatrix

namespace Group

open SparseShape

theorem listedCode?_eq_some {listed codes : List Nat} (sorted : listed.Pairwise (· < ·))
    (length : codes.length = listed.length) {row code : Nat} :
    listedCode? listed codes row = some code ↔ (row, code) ∈ listed.zip codes := by
  rw [listedCode?, @List.mem_iff_getElem _ (row, code)]
  constructor
  · intro found
    by_cases member : row ∈ listed
    · rw [if_pos member] at found
      obtain ⟨bound, value⟩ := List.getElem?_eq_some_iff.mp found
      have inside : listed.idxOf row < listed.length := List.idxOf_lt_length_iff.mpr member
      refine ⟨listed.idxOf row, by rw [List.length_zip]; omega, ?_⟩
      rw [List.getElem_zip, List.getElem_idxOf inside, value]
    · rw [if_neg member] at found
      cases found
  · rintro ⟨i, bound, pair⟩
    rw [List.getElem_zip] at pair
    rw [List.length_zip] at bound
    cases pair
    rw [if_pos (List.getElem_mem _), Increasing.idxOf_getElem sorted, List.getElem?_eq_getElem]

theorem mem_zip_of_mem_codes {listed codes : List Nat} (length : codes.length = listed.length)
    {code : Nat} (member : code ∈ codes) : ∃ row, (row, code) ∈ listed.zip codes := by
  obtain ⟨i, bound, rfl⟩ := List.mem_iff_getElem.mp member
  have inside : i < listed.length := by omega
  refine ⟨listed[i], List.mem_iff_getElem.mpr ⟨i, by rw [List.length_zip]; omega, ?_⟩⟩
  rw [List.getElem_zip]

section Shapes

variable {columns : List Nat} {rows : Nat} {bitmap : Bitmap} {cell : Nat → Nat → Cell}

/-- The only list of a bitmap names a row or none does. -/
theorem listOf?_of_single (valid : bitmap.WellFormed columns.length rows)
    (single : bitmap.tuples = 1) (row : Nat) :
    bitmap.listOf? row = if row ∈ bitmap.list 0 then some 0 else none := by
  by_cases member : row ∈ bitmap.list 0
  · rw [if_pos member, Bitmap.listOf?_eq_some valid]
    exact member
  · rw [if_neg member, Bitmap.listOf?_eq_none, Bitmap.mem_flatten_iff]
    rintro ⟨i, other⟩
    have bound := Bitmap.lt_tuples_of_mem_list other
    have : i = 0 := by omega
    subst this
    exact member other

theorem zeros_pos (valid : bitmap.WellFormed columns.length rows) {row : Nat} (inRow : row < rows)
    (absent : row ∉ bitmap.lists.flatten) : bitmap.zeros rows > 0 := by
  refine Nat.pos_of_ne_zero fun none => ?_
  exact absent (valid.zeros_eq_zero_iff.mp none row inRow)

theorem lists_explicitRows (valid : bitmap.WellFormed columns.length rows) (short : rows ≤ maxIndex)
    (shape : SparseShape) (frequent : Nat) :
    ∃ place, (RowIndex.ofRows (shape.explicitRows bitmap rows frequent)).Lists
      (shape.explicitRows bitmap rows frequent) place := by
  refine RowIndex.lists_ofRows (increasing_explicitRows valid shape frequent) ?_
  intro row member
  exact Nat.le_of_lt (Nat.lt_of_lt_of_le (lt_of_mem_explicitRows valid member) short)

/-- Outside the most frequent list, the code of a row names the tuple of its list in the moved
dictionary, or zeros if no list names the row. -/
theorem getElem?_movedTuples_outside (valid : bitmap.WellFormed columns.length rows)
    {frequent : Nat} (inside : frequent < bitmap.tuples) {row code : Nat}
    (outside : Merger.Outside bitmap.lists rows frequent row code) :
    (Dictionary.movedTuples (Dictionary.tuplesOf bitmap) columns.length frequent
      (bitmap.zeros rows))[code]? =
        some ((bitmap.listOf? row).elim (List.replicate columns.length Cell.zero)
          bitmap.tuple) := by
  rw [← Dictionary.length_tuplesOf] at inside
  rcases outside with ⟨i, other, listed, rfl⟩ | ⟨inRow, absent, rfl⟩
  · have bound := Bitmap.lt_tuples_of_mem_list listed
    rw [← Dictionary.length_tuplesOf] at bound
    rw [Merger.shift, Dictionary.getElem?_movedTuples_shift inside bound other,
      List.getElem?_eq_getElem bound, Dictionary.getElem_tuplesOf bound,
      (Bitmap.listOf?_eq_some valid).mpr listed, Option.elim_some]
  · have zero := Dictionary.getElem?_movedTuples_zero columns.length inside
      (zeros_pos valid inRow absent)
    rw [Dictionary.length_tuplesOf] at zero
    rw [← Bitmap.tuples, zero, Bitmap.listOf?_eq_none.mpr absent, Option.elim_none]

/-- Outside the most frequent list, a row holds the tuple of its code in the moved dictionary. -/
theorem tuple_of_outside (valid : bitmap.WellFormed columns.length rows)
    (shown : bitmap.Shows rows fun row => columns.map (cell row)) {frequent : Nat}
    (inside : frequent < bitmap.tuples) {row code : Nat} (inRow : row < rows)
    (outside : Merger.Outside bitmap.lists rows frequent row code) :
    (Dictionary.movedTuples (Dictionary.tuplesOf bitmap) columns.length frequent
      (bitmap.zeros rows))[code]? = some (columns.map (cell row)) := by
  rw [getElem?_movedTuples_outside valid inside outside]
  cases found : bitmap.listOf? row with
  | none =>
    have absent := Bitmap.listOf?_eq_none.mp found
    rw [Option.elim_none, zeroTuple_of_not_listed shown inRow absent]
  | some i =>
    have listed := (Bitmap.listOf?_eq_some valid).mp found
    rw [Option.elim_some, shown.listed i row listed]

/-- The codes of listed rows name tuples if all wanted pairs do. -/
theorem lt_of_mem_codes {listed codes : List Nat} {wanted : Nat → Nat → Prop}
    (length : codes.length = listed.length)
    (named : ∀ row code, (row, code) ∈ listed.zip codes ↔ wanted row code)
    (small : ∀ row code, wanted row code → code < bitmap.tuples) :
    ∀ code ∈ codes, code < bitmap.tuples := by
  intro code member
  obtain ⟨row, zipped⟩ := mem_zip_of_mem_codes length member
  exact small row code ((named row code).mp zipped)

theorem lt_of_outside {frequent row code : Nat} (inside : frequent < bitmap.tuples)
    (outside : Merger.Outside bitmap.lists rows frequent row code) : code < bitmap.tuples := by
  rcases outside with ⟨i, other, listed, rfl⟩ | ⟨_, _, rfl⟩
  · have less := Merger.shift_lt inside (Bitmap.lt_tuples_of_mem_list listed) other
    exact Nat.lt_of_lt_of_le less (Nat.sub_le _ _)
  · exact Nat.sub_lt (Nat.zero_lt_of_lt inside) Nat.one_pos

section Moved

variable (nonempty : columns ≠ []) (sorted : columns.Pairwise (· < ·))
  (valid : bitmap.WellFormed columns.length rows)
  (shown : bitmap.Shows rows fun row => columns.map (cell row)) (short : rows ≤ maxIndex)
  {moved : MovedDictionary} {frequent : Nat}
  (most : bitmap.zeros rows ≤ (bitmap.list frequent).length)
  (moving : (Dictionary.ofBitmap bitmap).moveFrequentToLast bitmap rows frequent = .ok moved)

include nonempty valid most moving

theorem moved_bounds : frequent < bitmap.tuples ∧ bitmap.tuples ≤ moved.dictionary.tuples ∧
    moved.dictionary.Holds columns.length (Dictionary.movedTuples (Dictionary.tuplesOf bitmap)
      columns.length frequent (bitmap.zeros rows)) := by
  have positive : 0 < columns.length := List.length_pos_iff.mpr nonempty
  obtain ⟨inside, holds⟩ := Dictionary.holds_moveFrequentToLast (Dictionary.holds_ofBitmap valid)
    positive most moving
  refine ⟨by rwa [Dictionary.length_tuplesOf] at inside, ?_, holds⟩
  rw [holds.tuples_eq positive, Dictionary.length_movedTuples inside, Dictionary.length_tuplesOf]
  exact Nat.le_add_right _ _

include sorted shown

/-- A group that names the moved tuple for the most frequent list and for every other row a code of
the merge without that list. -/
theorem shows_of_moved {body : GroupBody} {code : Nat → Nat}
    (codes : (⟨columns, rows, body⟩ : Group).Codes moved.dictionary fun row => some (code row))
    (others : ∀ row, row < rows → row ∉ bitmap.list frequent →
      Merger.Outside bitmap.lists rows frequent row (code row))
    (default : ∀ row ∈ bitmap.list frequent, code row = moved.dictionary.tuples - 1) :
    (⟨columns, rows, body⟩ : Group).Shows cell := by
  obtain ⟨inside, _, holds⟩ := moved_bounds nonempty valid most moving
  refine codes.shows holds nonempty sorted ?_ ?_
  · intro row tuple inRow named
    cases named
    by_cases listed : row ∈ bitmap.list frequent
    · rw [default row listed, holds.tuples_eq (List.length_pos_iff.mpr nonempty),
        Dictionary.getElem?_movedTuples_last (by rwa [Dictionary.length_tuplesOf]),
        tuple_of_listed shown listed]
    · exact tuple_of_outside valid shown inside inRow (others row inRow listed)
  · intro row _ none
    cases none

include short

/-- Rows outside the only list hold the first tuple of the dictionary, and the others the last. -/
theorem shows_single (single : bitmap.tuples = 1) :
    (⟨columns, rows, .sdcSingle moved.dictionary
      (.ofRows (SparseShape.single.explicitRows bitmap rows frequent))⟩ : Group).Shows cell := by
  obtain ⟨inside, larger, _⟩ := moved_bounds nonempty valid most moving
  obtain rfl : frequent = 0 := by omega
  obtain ⟨place, lists⟩ := lists_explicitRows valid short .single 0
  have outside : ∀ row, row ∈ SparseShape.single.explicitRows bitmap rows 0 ↔
      row < rows ∧ row ∉ bitmap.list 0 := fun row => mem_complement (valid.increasing_list 0)
  refine shows_of_moved nonempty sorted valid shown most moving
    (codes_sdcSingle lists (increasing_explicitRows valid .single 0)
      (fun row member => lt_of_mem_explicitRows valid member) short (by omega)) ?_ ?_
  · intro row inRow other
    have absent : row ∉ bitmap.lists.flatten := by
      rw [← Bitmap.listOf?_eq_none, listOf?_of_single valid single, if_neg other]
    rw [if_pos ((outside row).mpr ⟨inRow, other⟩)]
    refine .inr ⟨inRow, absent, ?_⟩
    rw [← Bitmap.tuples, single]
  · intro row listed
    rw [if_neg (fun member => ((outside row).mp member).2 listed)]

/-- Rows outside the most frequent list hold the tuples of their codes, and the others the last. -/
theorem shows_general {codes : List Nat}
    (length : codes.length = (SparseShape.general.explicitRows bitmap rows frequent).length)
    (named : ∀ row code, (row, code) ∈
      (SparseShape.general.explicitRows bitmap rows frequent).zip codes ↔
        Merger.Outside bitmap.lists rows frequent row code) :
    (⟨columns, rows, .sdc moved.dictionary
      (.ofRows (SparseShape.general.explicitRows bitmap rows frequent))
        (.ofList bitmap.tuples codes)⟩ : Group).Shows cell := by
  obtain ⟨inside, larger, _⟩ := moved_bounds nonempty valid most moving
  have few : bitmap.tuples ≤ UInt32.size := Nat.le_of_lt (valid.tuples_lt_size short)
  have small := lt_of_mem_codes length named fun _ _ => lt_of_outside inside
  have order := increasing_explicitRows valid .general frequent
  obtain ⟨place, lists⟩ := lists_explicitRows valid short .general frequent
  refine shows_of_moved nonempty sorted valid shown most moving
    (codes_sdc lists order (fun row member => lt_of_mem_explicitRows valid member) short length
      (fun i bound => CodeMap.get?_ofList few small bound)
      (fun code member => Nat.lt_of_lt_of_le (small code member) larger) (by omega)) ?_ ?_
  · intro row inRow other
    obtain ⟨code, found⟩ := listedCode?_eq_some_of_mem length
      ((mem_complement_iff valid).mpr ⟨inRow, other⟩)
    rw [found, Option.getD_some]
    exact (named row code).mp ((listedCode?_eq_some order length).mp found)
  · intro row listed
    have absent : row ∉ SparseShape.general.explicitRows bitmap rows frequent :=
      fun member => ((mem_complement_iff valid).mp member).2 listed
    rw [listedCode?, if_neg absent, Option.getD_none]

end Moved

theorem shows_sparse (nonempty : columns ≠ []) (sorted : columns.Pairwise (· < ·))
    (valid : bitmap.WellFormed columns.length rows)
    (shown : bitmap.Shows rows fun row => columns.map (cell row)) (short : rows ≤ maxIndex)
    {body : GroupBody} (h : SparseShape.encode bitmap rows = .ok body) :
    (⟨columns, rows, body⟩ : Group).Shows cell := by
  have positive : 0 < columns.length := List.length_pos_iff.mpr nonempty
  obtain ⟨frequent, largest, found, encoded⟩ := encode_eq_ok valid h
  obtain ⟨first, longest⟩ := Bitmap.largest?_eq_some found
  have some_ : 0 < bitmap.tuples := Nat.zero_lt_of_lt first.inside
  have holds := Dictionary.holds_ofBitmap valid
  have count := holds.tuples_eq positive
  rw [Dictionary.length_tuplesOf] at count
  obtain ⟨one, few, fewer⟩ := choose_spec bitmap.tuples (bitmap.zeros rows) largest
  generalize choose bitmap.tuples (bitmap.zeros rows) largest = shape at encoded one few fewer
  have order := increasing_explicitRows valid shape frequent
  have within := fun row (member : row ∈ shape.explicitRows bitmap rows frequent) =>
    lt_of_mem_explicitRows valid member
  obtain ⟨place, lists⟩ := lists_explicitRows valid short shape frequent
  cases encoded with
  | singleZeros =>
    refine shows_of_listOf nonempty sorted valid shown holds
      (codes_sdcSingleZeros lists order within short (by omega)) ?_
    intro row _
    exact (listOf?_of_single valid (one rfl) row).symm
  | single moved moving =>
    obtain ⟨only, less⟩ := few rfl
    exact shows_single nonempty sorted valid shown short (by omega) moving only
  | zeros codes length named =>
    have fits : bitmap.tuples ≤ UInt32.size := Nat.le_of_lt (valid.tuples_lt_size short)
    have small := lt_of_mem_codes length named fun _ _ => Bitmap.lt_tuples_of_mem_list
    refine shows_of_listOf nonempty sorted valid shown holds
      (codes_sdcZeros lists order within short length
        (fun i bound => CodeMap.get?_ofList fits small bound)
        fun code member => by rw [count]; exact small code member) ?_
    intro row _
    refine Option.ext fun code => ?_
    rw [listedCode?_eq_some order length, named, Bitmap.listOf?_eq_some valid]
  | general moved codes moving length named =>
    have less := fewer rfl
    exact shows_general nonempty sorted valid shown short (by omega) moving length named

end Shapes

end Group

end PackedMatrix
