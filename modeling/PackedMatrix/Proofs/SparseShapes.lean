import PackedMatrix.Group.SparseShape
import PackedMatrix.Proofs.DictionaryTuples
import PackedMatrix.Proofs.LargestList
import PackedMatrix.Proofs.Merging
import PackedMatrix.Proofs.OffsetReads

namespace PackedMatrix

namespace SparseShape

theorem complement_eq {count row : Nat} {list : List Nat} (sorted : list.Pairwise (· < ·))
    (behind : ∀ next ∈ list, row ≤ next) (rows : Array Nat) :
    complement count row list rows =
      rows ++ ((List.range' row count).filter fun other => !list.contains other).toArray := by
  induction count generalizing row list rows with
  | zero => simp [complement]
  | succ count ih =>
    rw [List.range'_succ]
    cases list with
    | nil =>
      apply Array.toList_inj.mp
      rw [complement, ih .nil (by simp)]
      simp
    | cons next rest =>
      obtain ⟨least, order⟩ := List.pairwise_cons.mp sorted
      have reached := behind next (by simp)
      by_cases here : next = row
      · have later : ∀ other ∈ rest, row + 1 ≤ other := by
          intro other member
          have := least other member
          omega
        have kept : (List.range' (row + 1) count).filter (fun other =>
            !(next :: rest).contains other) =
            (List.range' (row + 1) count).filter fun other => !rest.contains other := by
          apply List.filter_congr
          intro other member
          have := (List.mem_range'_1.mp member).1
          have apart : other ≠ next := by omega
          simp [apart]
        rw [complement, if_pos here, ih order later, List.filter_cons_of_neg (by simp [here]), kept]
      · have later : ∀ other ∈ next :: rest, row + 1 ≤ other := by
          intro other member
          rcases List.mem_cons.mp member with rfl | old
          · omega
          · have := least other old
            omega
        have absent : row ∉ next :: rest := by
          intro member
          have := later row member
          omega
        rw [complement, if_neg here, ih sorted later,
          List.filter_cons_of_pos (by simpa using absent)]
        simp

/-- The rows of a range that an increasing list does not name. -/
theorem mem_complement {rows : Nat} {list : List Nat} (sorted : list.Pairwise (· < ·)) {row : Nat} :
    row ∈ (complement rows 0 list #[]).toList ↔ row < rows ∧ row ∉ list := by
  rw [complement_eq sorted fun _ _ => Nat.zero_le _]
  simp [List.mem_range'_1]

theorem increasing_complement {rows : Nat} {list : List Nat} (sorted : list.Pairwise (· < ·)) :
    (complement rows 0 list #[]).toList.Pairwise (· < ·) := by
  rw [complement_eq sorted fun _ _ => Nat.zero_le _]
  simp only [Array.toList_append, List.nil_append]
  exact List.Pairwise.filter _ List.pairwise_lt_range'

theorem getElem?_mark (marked : List Nat) (present : Array Bool) (row : Nat) :
    (marked.foldl (fun present row => present.setIfInBounds row true) present)[row]? =
      present[row]?.map fun old => old || marked.contains row := by
  induction marked generalizing present with
  | nil => simp
  | cons first rest ih =>
    rw [List.foldl_cons, ih, Array.getElem?_setIfInBounds]
    by_cases here : first = row
    · by_cases inside : row < present.size
      · simp [here, inside]
      · simp [here, inside]
    · have apart : row ≠ first := fun same => here same.symm
      simp [here, apart]

theorem size_mark (marked : List Nat) (present : Array Bool) :
    (marked.foldl (fun present row => present.setIfInBounds row true) present).size =
      present.size := by
  induction marked generalizing present with
  | nil => rfl
  | cons first rest ih => rw [List.foldl_cons, ih, Array.size_setIfInBounds]

/-- Marks in a blank range say of each row whether it was marked. -/
theorem zipIdx_mark (marked : List Nat) (rows : Nat) :
    (marked.foldl (fun present row => present.setIfInBounds row true)
      (Array.replicate rows false)).toList.zipIdx =
        (List.range rows).map fun row => (marked.contains row, row) := by
  refine List.ext_getElem (by simp [size_mark]) ?_
  intro row first second
  have inside : row < rows := by simpa using second
  have here := getElem?_mark marked (Array.replicate rows false) row
  rw [Array.getElem?_replicate, if_pos inside, Option.map_some, Bool.false_or,
    Array.getElem?_eq_some_iff] at here
  obtain ⟨_, value⟩ := here
  simp [value]

theorem covered_eq (rows : Nat) (lists : List (List Nat)) :
    covered rows lists = (List.range rows).filter lists.flatten.contains := by
  rw [covered, List.flatMap_id, zipIdx_mark, List.filter_map, List.map_map]
  exact List.map_id _

theorem mem_covered {bitmap : Bitmap} {columns rows : Nat} (valid : bitmap.WellFormed columns rows)
    {row : Nat} : row ∈ covered rows bitmap.lists ↔ row ∈ bitmap.lists.flatten := by
  rw [covered_eq, List.mem_filter, List.mem_range, List.contains_iff_mem]
  constructor
  · exact fun both => both.2
  · intro member
    obtain ⟨i, listed⟩ := Bitmap.mem_flatten_iff.mp member
    exact ⟨valid.row_lt listed, member⟩

theorem increasing_covered (rows : Nat) (lists : List (List Nat)) :
    (covered rows lists).Pairwise (· < ·) := by
  rw [covered_eq]
  exact List.pairwise_lt_range.filter _

section ExplicitRows

variable {bitmap : Bitmap} {columns rows : Nat}

theorem increasing_explicitRows (valid : bitmap.WellFormed columns rows) (shape : SparseShape)
    (frequent : Nat) : (shape.explicitRows bitmap rows frequent).Pairwise (· < ·) := by
  cases shape with
  | singleZeros => exact valid.increasing_list 0
  | single => exact increasing_complement (valid.increasing_list 0)
  | zeros => exact increasing_covered rows bitmap.lists
  | general => exact increasing_complement (valid.increasing_list frequent)

theorem lt_of_mem_explicitRows (valid : bitmap.WellFormed columns rows) {shape : SparseShape}
    {frequent row : Nat} (member : row ∈ shape.explicitRows bitmap rows frequent) : row < rows := by
  cases shape with
  | singleZeros => exact valid.row_lt member
  | single => exact ((mem_complement (valid.increasing_list 0)).mp member).1
  | zeros =>
    obtain ⟨i, listed⟩ := Bitmap.mem_flatten_iff.mp ((mem_covered valid).mp member)
    exact valid.row_lt listed
  | general => exact ((mem_complement (valid.increasing_list frequent)).mp member).1

theorem mem_covered_iff (valid : bitmap.WellFormed columns rows) {frequent row : Nat} :
    row ∈ zeros.explicitRows bitmap rows frequent ↔ ∃ i, row ∈ bitmap.list i :=
  (mem_covered valid).trans Bitmap.mem_flatten_iff

theorem mem_complement_iff (valid : bitmap.WellFormed columns rows) {frequent row : Nat} :
    row ∈ general.explicitRows bitmap rows frequent ↔
      row < rows ∧ row ∉ bitmap.list frequent :=
  mem_complement (valid.increasing_list frequent)

theorem rows_of_insert (valid : bitmap.WellFormed columns rows) {merged : MergedRows}
    {codes : List Nat} (frequent : Nat) (collects : merged.Collects bitmap.lists.length
      (fun row code => row ∈ bitmap.lists.getD code []) codes) :
    merged.rows.toList = zeros.explicitRows bitmap rows frequent := by
  refine Increasing.eq_of_mem_iff collects.increasing (increasing_explicitRows valid _ _) ?_
  exact fun row => collects.mem_rows_iff.trans (mem_covered_iff valid).symm

theorem rows_of_insertExcluding (valid : bitmap.WellFormed columns rows) {merged : MergedRows}
    {codes : List Nat} {frequent : Nat} (collects : merged.Collects bitmap.tuples
      (Merger.Outside bitmap.lists rows frequent) codes) :
    merged.rows.toList = general.explicitRows bitmap rows frequent := by
  refine Increasing.eq_of_mem_iff collects.increasing (increasing_explicitRows valid _ _) ?_
  intro row
  rw [collects.mem_rows_iff, Merger.exists_outside_iff valid.disjoint]
  exact (mem_complement_iff valid).symm

/-- The body that a bitmap has in each shape. -/
inductive Encoded (bitmap : Bitmap) (rows frequent : Nat) : SparseShape → GroupBody → Prop
  | singleZeros : Encoded bitmap rows frequent .singleZeros
      (.sdcSingleZeros (.ofBitmap bitmap)
        (.ofRows (explicitRows .singleZeros bitmap rows frequent)))
  | single (moved : MovedDictionary)
      (moving : (Dictionary.ofBitmap bitmap).moveFrequentToLast bitmap rows frequent = .ok moved) :
      Encoded bitmap rows frequent .single
        (.sdcSingle moved.dictionary (.ofRows (explicitRows .single bitmap rows frequent)))
  | zeros (codes : List Nat)
      (length : codes.length = (explicitRows .zeros bitmap rows frequent).length)
      (named : ∀ row code, (row, code) ∈ (explicitRows .zeros bitmap rows frequent).zip codes ↔
        row ∈ bitmap.list code) :
      Encoded bitmap rows frequent .zeros
        (.sdcZeros (.ofBitmap bitmap) (.ofRows (explicitRows .zeros bitmap rows frequent))
          (.ofList bitmap.tuples codes))
  | general (moved : MovedDictionary) (codes : List Nat)
      (moving : (Dictionary.ofBitmap bitmap).moveFrequentToLast bitmap rows frequent = .ok moved)
      (length : codes.length = (explicitRows .general bitmap rows frequent).length)
      (named : ∀ row code, (row, code) ∈ (explicitRows .general bitmap rows frequent).zip codes ↔
        Merger.Outside bitmap.lists rows frequent row code) :
      Encoded bitmap rows frequent .general
        (.sdc moved.dictionary (.ofRows (explicitRows .general bitmap rows frequent))
          (.ofList bitmap.tuples codes))

/-- A merge of all lists makes the body of the zero default. -/
theorem Encoded.of_insert (valid : bitmap.WellFormed columns rows) (frequent : Nat)
    {merger : Merger} {merged : MergedRows} (merging : merger.insert bitmap.lists = .ok merged) :
    Encoded bitmap rows frequent .zeros
      (.sdcZeros (.ofBitmap bitmap) (.ofRows merged.rows.toList) merged.codes) := by
  obtain ⟨codes, collects⟩ := Merger.insert_eq_ok merging
  have listed := rows_of_insert valid frequent collects
  obtain ⟨length, named⟩ := collects.of_rows listed
  rw [listed, collects.stored]
  exact .zeros codes length named

/-- A merge without the most frequent list makes the body of the moved default. -/
theorem Encoded.of_insertExcluding (valid : bitmap.WellFormed columns rows) {frequent : Nat}
    {strategy : MergeStrategy} {merged : MergedRows} {moved : MovedDictionary}
    (moving : (Dictionary.ofBitmap bitmap).moveFrequentToLast bitmap rows frequent = .ok moved)
    (merging : Merger.insertExcluding ⟨strategy, rows⟩ bitmap.lists frequent = .ok merged) :
    Encoded bitmap rows frequent .general
      (.sdc moved.dictionary (.ofRows merged.rows.toList) merged.codes) := by
  obtain ⟨codes, collects⟩ := Merger.insertExcluding_eq_ok valid.disjoint merging
  have listed := rows_of_insertExcluding valid collects
  obtain ⟨length, named⟩ := collects.of_rows listed
  rw [listed, collects.stored]
  exact .general moved codes moving length named

/-- A body that was encoded has the shape that was chosen for the bitmap. -/
theorem encode_eq_ok (valid : bitmap.WellFormed columns rows) {body : GroupBody}
    (h : encode bitmap rows = .ok body) : ∃ frequent largest,
      bitmap.largest? = some (frequent, largest) ∧
        Encoded bitmap rows frequent (choose bitmap.tuples (bitmap.zeros rows) largest) body := by
  cases found : bitmap.largest? with
  | none => simp [encode, forBitmap?, found] at h
  | some pair =>
    obtain ⟨frequent, largest⟩ := pair
    refine ⟨frequent, largest, rfl, ?_⟩
    have chosen : forBitmap? bitmap rows =
        some (choose bitmap.tuples (bitmap.zeros rows) largest, frequent) := by
      rw [forBitmap?, found, Option.map_some]
    rw [encode, chosen] at h
    cases shape : choose bitmap.tuples (bitmap.zeros rows) largest with
    | singleZeros =>
      rw [shape] at h
      cases h
      exact .singleZeros
    | single =>
      rw [shape] at h
      obtain ⟨moved, moving, made⟩ := bind_eq_ok h
      cases made
      exact .single moved moving
    | zeros =>
      rw [shape] at h
      obtain ⟨merged, merging, made⟩ := bind_eq_ok h
      cases made
      exact .of_insert valid frequent merging
    | general =>
      rw [shape] at h
      obtain ⟨moved, moving, rest⟩ := bind_eq_ok h
      obtain ⟨merged, merging, made⟩ := bind_eq_ok rest
      cases made
      exact .of_insertExcluding valid moving merging

/-- A shape of one tuple is chosen for one tuple only. -/
theorem choose_spec (tuples zeroRows largest : Nat) :
    (choose tuples zeroRows largest = .singleZeros → tuples = 1) ∧
      (choose tuples zeroRows largest = .single → tuples = 1 ∧ zeroRows < largest) ∧
        (choose tuples zeroRows largest = .general → zeroRows < largest) := by
  unfold choose
  split
  next one =>
    split
    next => simp [one]
    next few => simp [one, Nat.lt_of_not_le few]
  next =>
    split
    next => simp
    next few => simp [Nat.lt_of_not_le few]

end ExplicitRows

end SparseShape

end PackedMatrix
