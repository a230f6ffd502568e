import PackedMatrix.Bitmap.Extract
import PackedMatrix.Proofs.BitmapView
import PackedMatrix.Proofs.ColumnMerge

namespace PackedMatrix

namespace TupleRow

/-- The rows of a tuple. -/
def rowsOf (items : List TupleRow) (tuple : List Cell) : List Nat :=
  (items.filter (·.tuple == tuple)).map TupleRow.row

theorem mem_rowsOf {items : List TupleRow} {tuple : List Cell} {row : Nat} :
    row ∈ rowsOf items tuple ↔ ⟨row, tuple⟩ ∈ items := by
  simp only [rowsOf, List.mem_map, List.mem_filter, beq_iff_eq]
  constructor
  · rintro ⟨item, ⟨member, rfl⟩, rfl⟩
    exact member
  · intro member
    exact ⟨_, ⟨member, rfl⟩, rfl⟩

theorem increasing_rowsOf {items : List TupleRow} (tuple : List Cell)
    (increasing : (items.map TupleRow.row).Pairwise (· < ·)) :
    (rowsOf items tuple).Pairwise (· < ·) := by
  rw [rowsOf, List.pairwise_map]
  exact (List.pairwise_map.mp increasing).sublist List.filter_sublist

theorem rowsOf_append_same (items : List TupleRow) (item : TupleRow) :
    rowsOf (items ++ [item]) item.tuple = rowsOf items item.tuple ++ [item.row] := by
  simp [rowsOf]

theorem rowsOf_append_other (items : List TupleRow) {item : TupleRow} {tuple : List Cell}
    (differs : item.tuple ≠ tuple) : rowsOf (items ++ [item]) tuple = rowsOf items tuple := by
  simp [rowsOf, differs]

end TupleRow

namespace Grouping

/-- Tuples are numbered once each, and each list has the rows of its tuple among those met. -/
structure Invariant (grouping : Grouping) (met : List TupleRow) : Prop where
  places : ∀ (tuple : List Cell) (place : Nat),
    grouping.places[tuple]? = some place ↔ grouping.tuples[place]? = some tuple
  lists : ∀ (place : Nat), grouping.lists[place]? =
    grouping.tuples[place]?.map fun tuple => (TupleRow.rowsOf met tuple).toArray
  known : ∀ item ∈ met, item.tuple ∈ grouping.tuples
  used : ∀ tuple ∈ grouping.tuples, ∃ item ∈ met, item.tuple = tuple

theorem invariant_start : start.Invariant [] := by
  refine ⟨?_, ?_, ?_, ?_⟩ <;> simp [start]

namespace Invariant

variable {grouping : Grouping} {met : List TupleRow} {item : TupleRow}

theorem size_lists (holds : grouping.Invariant met) :
    grouping.lists.size = grouping.tuples.size := by
  have bound := holds.lists grouping.tuples.size
  have bound' := holds.lists grouping.lists.size
  rw [Array.getElem?_eq_none (Nat.le_refl grouping.tuples.size), Option.map_none] at bound
  rw [Array.getElem?_eq_none (Nat.le_refl grouping.lists.size)] at bound'
  have first := Array.getElem?_eq_none_iff.mp bound
  have second := Array.getElem?_eq_none_iff.mp (Option.map_eq_none_iff.mp bound'.symm)
  omega

theorem nodup_tuples (holds : grouping.Invariant met) : grouping.tuples.toList.Nodup := by
  rw [List.nodup_iff_pairwise_ne, List.pairwise_iff_getElem]
  intro i j boundI boundJ order same
  have numbered : ∀ k (bound : k < grouping.tuples.toList.length),
      grouping.places[grouping.tuples.toList[k]]? = some k := by
    intro k bound
    refine (holds.places _ k).mpr ?_
    rw [← Array.getElem?_toList, List.getElem?_eq_getElem bound]
  have first := numbered i boundI
  rw [same, numbered j boundJ] at first
  have := Option.some.inj first
  omega

theorem places_eq_none_iff (holds : grouping.Invariant met) {tuple : List Cell} :
    grouping.places[tuple]? = none ↔ tuple ∉ grouping.tuples := by
  rw [Option.eq_none_iff_forall_ne_some, Array.mem_iff_getElem?, not_exists]
  exact forall_congr' fun place => not_congr (holds.places tuple place)

theorem rowsOf_eq_nil (holds : grouping.Invariant met) {tuple : List Cell}
    (new : tuple ∉ grouping.tuples) : TupleRow.rowsOf met tuple = [] := by
  apply List.eq_nil_iff_forall_not_mem.mpr
  intro row member
  exact new (holds.known ⟨row, tuple⟩ (TupleRow.mem_rowsOf.mp member))

/-- A row with a tuple that has been met extends the list of that tuple. -/
theorem add_known (holds : grouping.Invariant met) {place : Nat}
    (found : grouping.places[item.tuple]? = some place) :
    (grouping.add item).Invariant (met ++ [item]) := by
  have here := (holds.places item.tuple place).mp found
  simp only [Grouping.add, found]
  refine ⟨holds.places, ?_, ?_, ?_⟩
  · intro other
    rw [Array.getElem?_modify, holds.lists other]
    by_cases same : place = other
    · subst same
      simp [here, TupleRow.rowsOf_append_same]
    · cases there : grouping.tuples[other]? with
      | none => simp [same]
      | some tuple =>
        have differs : item.tuple ≠ tuple := by
          rintro rfl
          have again := (holds.places item.tuple other).mpr there
          exact same (Option.some.inj (found.symm.trans again))
        simp [same, TupleRow.rowsOf_append_other met differs]
  · intro other member
    rcases List.mem_append.mp member with member | member
    · exact holds.known other member
    · rw [List.mem_singleton.mp member]
      exact Array.mem_of_getElem? here
  · intro tuple member
    obtain ⟨other, among, same⟩ := holds.used tuple member
    exact ⟨other, List.mem_append_left _ among, same⟩

/-- A row with a new tuple gives it the next number. -/
theorem add_new (holds : grouping.Invariant met) (found : grouping.places[item.tuple]? = none) :
    (grouping.add item).Invariant (met ++ [item]) := by
  have new := holds.places_eq_none_iff.mp found
  simp only [Grouping.add, found]
  refine ⟨?_, ?_, ?_, ?_⟩
  · intro tuple place
    rw [Std.HashMap.getElem?_insert, Array.getElem?_push]
    by_cases same : item.tuple = tuple
    · subst same
      by_cases last : place = grouping.tuples.size
      · simp [last]
      · have elsewhere : grouping.tuples[place]? ≠ some item.tuple :=
          fun here => new (Array.mem_of_getElem? here)
        simp [last, elsewhere, Ne.symm last]
    · by_cases last : place = grouping.tuples.size
      · have outside : grouping.places[tuple]? ≠ some grouping.tuples.size := by
          intro here
          have := (holds.places tuple _).mp here
          simp at this
        simp [same, last, outside]
      · simp [same, last, holds.places tuple place]
  · intro place
    rw [Array.getElem?_push, Array.getElem?_push, holds.size_lists]
    by_cases last : place = grouping.tuples.size
    · simp [last, TupleRow.rowsOf_append_same, holds.rowsOf_eq_nil new]
    · rw [if_neg last, if_neg last, holds.lists place]
      cases there : grouping.tuples[place]? with
      | none => simp
      | some tuple =>
        have differs : item.tuple ≠ tuple := by
          rintro rfl
          exact new (Array.mem_of_getElem? there)
        simp [TupleRow.rowsOf_append_other met differs]
  · intro other member
    rcases List.mem_append.mp member with member | member
    · exact Array.mem_push.mpr (Or.inl (holds.known other member))
    · rw [List.mem_singleton.mp member]
      exact Array.mem_push.mpr (Or.inr rfl)
  · intro tuple member
    rcases Array.mem_push.mp member with member | rfl
    · obtain ⟨other, among, same⟩ := holds.used tuple member
      exact ⟨other, List.mem_append_left _ among, same⟩
    · exact ⟨item, by simp, rfl⟩

theorem add (holds : grouping.Invariant met) (item : TupleRow) :
    (grouping.add item).Invariant (met ++ [item]) := by
  cases found : grouping.places[item.tuple]? with
  | none => exact holds.add_new found
  | some place => exact holds.add_known found

end Invariant

theorem invariant_foldl {grouping : Grouping} {met : List TupleRow} (holds : grouping.Invariant met)
    (items : List TupleRow) : (items.foldl Grouping.add grouping).Invariant (met ++ items) := by
  induction items generalizing grouping met with
  | nil => simpa using holds
  | cons item rest ih =>
    rw [List.foldl_cons, ← List.singleton_append, ← List.append_assoc]
    exact ih (holds.add item)

end Grouping

namespace Bitmap

/-- The lists of a grouping, by the number of their tuple. -/
theorem ofTupleRows_eq_grouping (width : Nat) (items : List TupleRow) :
    ofTupleRows width items =
      ⟨width, (items.foldl Grouping.add .start).tuples.toList.flatten.toArray,
        (items.foldl Grouping.add .start).tuples.toList.map (TupleRow.rowsOf items)⟩ := by
  have holds := Grouping.invariant_foldl Grouping.invariant_start items
  rw [List.nil_append] at holds
  generalize made : items.foldl Grouping.add .start = grouping at holds
  have lists : grouping.lists.toList.map Array.toList =
      grouping.tuples.toList.map (TupleRow.rowsOf items) := by
    apply List.ext_getElem?
    intro place
    simp only [List.getElem?_map, Array.getElem?_toList, holds.lists place, Option.map_map]
    rfl
  simp [ofTupleRows, made, lists]

theorem ofTupleRows_eq (width : Nat) (items : List TupleRow) :
    ∃ tuples : List (List Cell), tuples.Nodup ∧
      (∀ item ∈ items, item.tuple ∈ tuples) ∧
      (∀ tuple ∈ tuples, ∃ item ∈ items, item.tuple = tuple) ∧
      ofTupleRows width items =
        ⟨width, tuples.flatten.toArray, tuples.map (TupleRow.rowsOf items)⟩ := by
  have holds := Grouping.invariant_foldl Grouping.invariant_start items
  rw [List.nil_append] at holds
  refine ⟨_, holds.nodup_tuples, ?_, ?_, ofTupleRows_eq_grouping width items⟩
  · exact fun item member => Array.mem_toList_iff.mpr (holds.known item member)
  · exact fun tuple member => holds.used tuple (Array.mem_toList_iff.mp member)

section Grouped

variable {width rows : Nat} {items : List TupleRow}

/-- A row is in the list of a tuple exactly if it was grouped with that tuple. -/
theorem mem_list_ofTupleRows_iff (widths : ∀ item ∈ items, item.tuple.length = width) {i row : Nat}
    (bound : i < (ofTupleRows width items).tuples) :
    row ∈ (ofTupleRows width items).list i ↔
      ⟨row, (ofTupleRows width items).tuple i⟩ ∈ items := by
  obtain ⟨tuples, _, _, used, made⟩ := ofTupleRows_eq width items
  have lengths : ∀ tuple ∈ tuples, tuple.length = width := by
    intro tuple member
    obtain ⟨item, among, rfl⟩ := used tuple member
    exact widths item among
  have bound : i < tuples.length := by simpa [made, Bitmap.tuples] using bound
  have tupleAt : (ofTupleRows width items).tuple i = tuples[i] := by
    have part := Segments.extract_flatten bound
    rw [Segments.offset_of_width lengths (Nat.le_of_lt bound),
      Segments.offset_of_width lengths (Nat.succ_le_of_lt bound)] at part
    simp only [made, tuple]
    exact part
  have listAt : (ofTupleRows width items).list i = TupleRow.rowsOf items tuples[i] := by
    simp [made, list, List.getD_eq_getElem?_getD, bound]
  rw [listAt, tupleAt]
  exact TupleRow.mem_rowsOf

theorem mem_list_ofTupleRows (widths : ∀ item ∈ items, item.tuple.length = width) {i row : Nat}
    (member : row ∈ (ofTupleRows width items).list i) :
    ⟨row, (ofTupleRows width items).tuple i⟩ ∈ items :=
  (mem_list_ofTupleRows_iff widths (lt_tuples_of_mem_list member)).mp member

theorem mem_lists_ofTupleRows (width : Nat) {row : Nat} :
    row ∈ (ofTupleRows width items).lists.flatten ↔ row ∈ items.map TupleRow.row := by
  obtain ⟨tuples, _, known, _, made⟩ := ofTupleRows_eq width items
  simp only [made, List.mem_flatten, List.mem_map, exists_exists_and_eq_and, TupleRow.mem_rowsOf]
  constructor
  · rintro ⟨tuple, _, member⟩
    exact ⟨_, member, rfl⟩
  · rintro ⟨item, member, rfl⟩
    exact ⟨item.tuple, known item member, member⟩

theorem wellFormed_ofTupleRows (increasing : (items.map TupleRow.row).Pairwise (· < ·))
    (inside : ∀ item ∈ items, item.row < rows)
    (widths : ∀ item ∈ items, item.tuple.length = width) :
    (ofTupleRows width items).WellFormed width rows := by
  obtain ⟨tuples, distinct, known, used, made⟩ := ofTupleRows_eq width items
  rw [made]
  refine ⟨rfl, ?_, ?_, ?_, ?_, ?_⟩
  · have lengths : ∀ tuple ∈ tuples, tuple.length = width := by
      intro tuple member
      obtain ⟨item, among, rfl⟩ := used tuple member
      exact widths item among
    have size : tuples.flatten.length = tuples.length * width := by
      rw [← Segments.offset_length, Segments.offset_of_width lengths (Nat.le_refl _)]
    simp [Bitmap.tuples, size]
  · intro list member
    obtain ⟨tuple, among, rfl⟩ := List.mem_map.mp member
    obtain ⟨item, here, rfl⟩ := used tuple among
    exact List.ne_nil_of_mem (TupleRow.mem_rowsOf.mpr here)
  · intro list member
    obtain ⟨tuple, _, rfl⟩ := List.mem_map.mp member
    exact TupleRow.increasing_rowsOf tuple increasing
  · intro list member row here
    obtain ⟨tuple, _, rfl⟩ := List.mem_map.mp member
    exact inside _ (TupleRow.mem_rowsOf.mp here)
  · refine List.nodup_flatten.mpr ⟨?_, ?_⟩
    · intro list member
      obtain ⟨tuple, _, rfl⟩ := List.mem_map.mp member
      exact Increasing.nodup (TupleRow.increasing_rowsOf tuple increasing)
    · rw [List.pairwise_map]
      apply distinct.imp
      intro a b differs
      apply List.disjoint_left.mpr
      intro row first second
      have same := List.inj_on_of_nodup_map (Increasing.nodup increasing)
        (TupleRow.mem_rowsOf.mp first) (TupleRow.mem_rowsOf.mp second) rfl
      exact differs (congrArg TupleRow.tuple same)

end Grouped

theorem extract_of_inside {source : Source} {columns : List Nat} (valid : source.WellFormed)
    (sorted : columns.Pairwise (· < ·)) (inside : ∀ col ∈ columns, col < source.cols) :
    extract columns source = .ok (ofTupleRows columns.length (tupleRows columns source)) := by
  have found : columns.find? (· ≥ source.cols) = none := by
    rw [List.find?_eq_none]
    intro col member
    simpa using inside col member
  have short : ¬ source.rows > maxIndex := Nat.not_lt.mpr (Source.rows_le valid)
  rw [extract, if_neg (fun unsorted => unsorted sorted), found]
  exact if_neg short

theorem inside_of_extract {source : Source} {columns : List Nat} {bitmap : Bitmap}
    (h : extract columns source = .ok bitmap) :
    columns.Pairwise (· < ·) ∧ ∀ col ∈ columns, col < source.cols := by
  rw [extract, guard_eq_ok_iff] at h
  obtain ⟨sorted, h⟩ := h
  refine ⟨Decidable.not_not.mp sorted, ?_⟩
  split at h
  next => cases h
  next found =>
    intro col member
    simpa using List.find?_eq_none.mp found col member

/-- The bitmap of increasing columns of a source is well-formed and shows their tuples. -/
theorem extract_eq_ok {source : Source} {columns : List Nat} {bitmap : Bitmap}
    (valid : source.WellFormed) (h : extract columns source = .ok bitmap) :
    columns.Pairwise (· < ·) ∧ (∀ col ∈ columns, col < source.cols) ∧
      bitmap.WellFormed columns.length source.rows ∧
      bitmap.Shows source.rows (source.tuple columns) := by
  obtain ⟨sorted, inside⟩ := inside_of_extract h
  rw [extract_of_inside valid sorted inside, tupleRows_eq valid sorted inside] at h
  cases h
  have bounds : ∀ item ∈ source.shownFrom columns 0, item.row < source.rows :=
    fun item member => (Source.mem_shownFrom.mp member).1
  have widths : ∀ item ∈ source.shownFrom columns 0, item.tuple.length = columns.length := by
    intro item member
    rw [(Source.mem_shownFrom.mp member).2.1, Source.length_tuple]
  refine ⟨sorted, inside,
    wellFormed_ofTupleRows (Source.increasing_shownFrom source columns) bounds widths, ?_, ?_⟩
  · intro i row member
    exact (Source.mem_shownFrom.mp (mem_list_ofTupleRows widths member)).2.1
  · intro row bound absent
    by_contra nonzero
    refine absent ((mem_lists_ofTupleRows _).mpr ?_)
    refine List.mem_map.mpr ⟨⟨row, source.tuple columns row⟩, ?_, rfl⟩
    exact Source.mem_shownFrom.mpr ⟨bound, rfl, by simpa using nonzero⟩

end Bitmap

end PackedMatrix
