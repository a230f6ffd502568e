import PackedMatrix.Group.Validity
import PackedMatrix.Proofs.CodeMapReads
import PackedMatrix.Proofs.DictionaryTuples
import PackedMatrix.Proofs.RowIndexChecks
import PackedMatrix.Proofs.Steps

namespace PackedMatrix

namespace Dictionary

theorem validate_eq_ok_iff {dictionary : Dictionary} : dictionary.validate = .ok () ↔
    0 < dictionary.width ∧ dictionary.values.size % dictionary.width = 0 := by
  unfold validate
  split
  next broken =>
    refine ⟨fun h => ?_, fun ⟨positive, whole⟩ => ?_⟩
    · cases h
    · omega
  next fit => exact ⟨fun _ => by omega, fun _ => rfl⟩

/-- The values, cut into tuples. -/
def cut (dictionary : Dictionary) : List (List Cell) :=
  (List.range dictionary.tuples).map dictionary.tuple

/-- A dictionary of whole tuples holds the tuples that its values are cut into. -/
theorem holds_cut {dictionary : Dictionary} (h : dictionary.validate = .ok ()) :
    dictionary.Holds dictionary.width dictionary.cut := by
  obtain ⟨positive, whole⟩ := validate_eq_ok_iff.mp h
  have size : dictionary.tuples * dictionary.width = dictionary.values.size :=
    Nat.div_mul_cancel (Nat.dvd_of_mod_eq_zero whole)
  refine ⟨rfl, ?_, ?_⟩
  · have all := Segments.flatten_cuts dictionary.values dictionary.width dictionary.tuples
    rw [size, ← Array.length_toList, List.take_length] at all
    exact congrArg List.toArray all.symm
  · intro tuple member
    obtain ⟨i, listed, rfl⟩ := List.mem_map.mp member
    have inside := List.mem_range.mp listed
    have upTo : (i + 1) * dictionary.width ≤ dictionary.values.size := by
      rw [← size]
      exact Nat.mul_le_mul_right _ inside
    rw [Nat.succ_mul] at upTo
    rw [Dictionary.tuple, Array.length_toList, Array.size_extract, Nat.succ_mul]
    omega

theorem Holds.validate {dictionary : Dictionary} {width : Nat} {tuples : List (List Cell)}
    (holds : dictionary.Holds width tuples) (positive : 0 < width) :
    dictionary.validate = .ok () := by
  rw [validate_eq_ok_iff, holds.size_values, holds.wide]
  exact ⟨positive, Nat.mul_mod_left _ _⟩

end Dictionary

namespace CodeMap

theorem validate_eq_ok_iff {codes : CodeMap} : codes.validate = .ok () ↔ codes.Sized := by
  cases codes with
  | bit words length =>
    rw [validate, Sized]
    split
    next fit => exact ⟨fun _ => fit, fun _ => rfl⟩
    next differs =>
      refine ⟨fun h => ?_, fun fit => absurd fit differs⟩
      cases h
  | byte _ => exact ⟨fun _ => trivial, fun _ => rfl⟩
  | half _ => exact ⟨fun _ => trivial, fun _ => rfl⟩
  | word _ => exact ⟨fun _ => trivial, fun _ => rfl⟩

theorem length_toList (codes : CodeMap) : codes.toList.length = codes.length := by
  simp [toList]

theorem Sized.exists_get? {codes : CodeMap} (sized : codes.Sized) {i : Nat}
    (inside : i < codes.length) : ∃ code, codes.get? i = some code := by
  cases codes with
  | bit words length =>
    have size : words.size = wordsFor length := sized
    have inside : i < length := inside
    have within : i / 64 < words.size := by
      rw [size, wordsFor]
      omega
    exact ⟨_, by rw [get?, Array.getElem?_eq_getElem within, Option.map_some]⟩
  | byte codes => exact ⟨_, by rw [get?, Array.getElem?_eq_getElem inside, Option.map_some]⟩
  | half codes => exact ⟨_, by rw [get?, Array.getElem?_eq_getElem inside, Option.map_some]⟩
  | word codes => exact ⟨_, by rw [get?, Array.getElem?_eq_getElem inside, Option.map_some]⟩

theorem Sized.get?_eq {codes : CodeMap} (sized : codes.Sized) {i : Nat}
    (inside : i < codes.toList.length) : codes.get? i = some codes.toList[i] := by
  obtain ⟨code, read⟩ := sized.exists_get? (by rwa [length_toList] at inside)
  simp [toList, read]

theorem lt_of_mem_toList {codes : CodeMap} {tuples : Nat}
    (reads : ∀ i, i < codes.length → ∃ code, codes.get? i = some code ∧ code < tuples) :
    ∀ code ∈ codes.toList, code < tuples := by
  intro code member
  obtain ⟨i, listed, rfl⟩ := List.mem_map.mp member
  obtain ⟨code, read, small⟩ := reads i (List.mem_range.mp listed)
  rw [read]
  exact small

end CodeMap

namespace Group

variable {group : Group} {rows : Nat}

/-- Rows without a stray one increase behind the last row and lie inside. -/
theorem firstStray_eq_none {last : Option Nat} {listed : List Nat} :
    firstStray rows last listed = none ↔ listed.Pairwise (· < ·) ∧
      (∀ row ∈ listed, row < rows) ∧ ∀ row ∈ listed, ∀ before ∈ last, before < row := by
  induction listed generalizing last with
  | nil => simp [firstStray]
  | cons row rest ih =>
    rw [firstStray, List.pairwise_cons, List.forall_mem_cons, List.forall_mem_cons,
      ← Bitmap.any_ge_eq_false_iff]
    split
    next stray =>
      refine iff_of_false (fun found => nomatch found) ?_
      rintro ⟨_, ⟨inRow, _⟩, order, _⟩
      rw [order] at stray
      exact stray.elim (Nat.not_le.mpr inRow) fun behind => nomatch behind
    next fit =>
      simp only [not_or, ge_iff_le, Nat.not_le, Bool.not_eq_true] at fit
      obtain ⟨inRow, order⟩ := fit
      rw [ih]
      constructor
      · rintro ⟨sorted, inside, behind⟩
        refine ⟨⟨fun later member => behind later member row rfl, sorted⟩, ⟨inRow, inside⟩, order,
          fun later member before known => ?_⟩
        have first := Bitmap.any_ge_eq_false_iff.mp order before known
        exact Nat.lt_trans first (behind later member row rfl)
      · rintro ⟨⟨behind, sorted⟩, ⟨_, inside⟩, _⟩
        refine ⟨sorted, inside, fun later member before known => ?_⟩
        obtain rfl : row = before := Option.some.inj known
        exact behind later member

theorem rows_lt_of_firstStray {listed : List Nat} (h : firstStray rows none listed = none) :
    listed.Pairwise (· < ·) ∧ ∀ row ∈ listed, row < rows := by
  obtain ⟨order, inside, _⟩ := firstStray_eq_none.mp h
  exact ⟨order, inside⟩

/-- Listed rows that are accepted increase and lie inside, with a code for each of them. -/
theorem exists_lists_of_checkIndex {index : RowIndex} {codes? : Option CodeMap}
    (h : checkIndex rows index codes? = .ok ()) : ∃ listed place, index.Lists listed place ∧
      listed.Pairwise (· < ·) ∧ (∀ row ∈ listed, row < rows) ∧
        ∀ codes ∈ codes?, codes.length = listed.length := by
  unfold checkIndex at h
  split at h
  next => cases h
  next accepted =>
    obtain ⟨listed, place, lists, _⟩ := RowIndex.exists_lists (mapError_eq_ok accepted)
    simp only [lists.rows_eq] at h
    split at h
    next => cases h
    next inOrder =>
      obtain ⟨order, inside⟩ := rows_lt_of_firstStray inOrder
      rw [if_neg (by simp [lists.length])] at h
      refine ⟨listed, place, lists, order, inside, ?_⟩
      intro codes given
      rw [Option.mem_def.mp given] at h
      simp only at h
      split at h
      next => cases h
      next same => simpa using same

theorem checkIndex_of_lists {index : RowIndex} {listed : List Nat} {place : Nat → Nat}
    (accepted : index.check = .ok ()) (lists : index.Lists listed place)
    (sorted : listed.Pairwise (· < ·)) (inside : ∀ row ∈ listed, row < rows)
    {codes? : Option CodeMap} (length : ∀ codes ∈ codes?, codes.length = listed.length) :
    checkIndex rows index codes? = .ok () := by
  have inOrder : firstStray rows none listed = none :=
    firstStray_eq_none.mpr ⟨sorted, inside, fun _ _ _ none => nomatch none⟩
  have validated : index.validate = .ok () := by
    rw [RowIndex.validate, accepted]
    rfl
  simp only [checkIndex, validated, lists.rows_eq, inOrder, lists.length, ne_eq, not_true_eq_false,
    ↓reduceIte]
  cases codes? with
  | none => rfl
  | some codes => simp [length codes rfl]

theorem checkDictionary_eq_ok_iff : group.checkDictionary = .ok () ↔
    ∀ dictionary, group.body.dictionary? = some dictionary →
      dictionary.validate = .ok () ∧ dictionary.width = group.columns.length := by
  cases given : group.body.dictionary? with
  | none => simp [checkDictionary, given]
  | some dictionary =>
    cases whole : dictionary.validate with
    | error error => simp [checkDictionary, given, whole]
    | ok _ =>
      by_cases wide : dictionary.width = group.columns.length
      · simp [checkDictionary, given, whole, wide]
      · simp [checkDictionary, given, whole, wide]

theorem checkCodes_eq_ok_iff : group.checkCodes = .ok () ↔
    ∀ dictionary codes, group.body.dictionary? = some dictionary →
      group.body.codes? = some codes → ∀ code ∈ codes.toList, code < dictionary.tuples := by
  cases dictionary? : group.body.dictionary? with
  | none => simp [checkCodes, dictionary?]
  | some dictionary =>
    cases codes? : group.body.codes? with
    | none => simp [checkCodes, dictionary?, codes?]
    | some codes =>
      cases most : codes.maxCode? with
      | none =>
        have nothing : codes.toList = [] := List.max?_eq_none_iff.mp most
        simp [checkCodes, dictionary?, codes?, most, nothing]
      | some code =>
        obtain ⟨member, upTo⟩ := List.max?_eq_some_iff.mp most
        by_cases named : code < dictionary.tuples
        · simp only [checkCodes, dictionary?, codes?, most, ge_iff_le, Nat.not_le.mpr named,
            ↓reduceIte, true_iff]
          rintro _ _ ⟨⟩ ⟨⟩ other listed
          exact Nat.lt_of_le_of_lt (upTo other listed) named
        · simp only [checkCodes, dictionary?, codes?, most, ge_iff_le, Nat.le_of_not_lt named,
            ↓reduceIte, reduceCtorEq, false_iff]
          intro all
          exact named (all dictionary codes rfl rfl code member)

section Body

variable {columns : List Nat} {dictionary : Dictionary} {index : RowIndex} {codes : CodeMap}
  {block : Block}

theorem checkBody_const_iff :
    (⟨columns, rows, .const dictionary⟩ : Group).checkBody = .ok () ↔ dictionary.tuples = 1 := by
  simp only [checkBody, guard_eq_ok_iff, not_not, and_true]

theorem checkBody_ddc_iff :
    (⟨columns, rows, .ddc dictionary codes⟩ : Group).checkBody = .ok () ↔
      codes.length = rows := by
  simp only [checkBody, guard_eq_ok_iff, not_not, and_true]

theorem checkBody_sdc_iff :
    (⟨columns, rows, .sdc dictionary index codes⟩ : Group).checkBody = .ok () ↔
      0 < dictionary.tuples ∧ checkIndex rows index (some codes) = .ok () := by
  simp only [checkBody, guard_eq_ok_iff, Nat.pos_iff_ne_zero, ne_eq]

theorem checkBody_sdcSingle_iff :
    (⟨columns, rows, .sdcSingle dictionary index⟩ : Group).checkBody = .ok () ↔
      (0 < dictionary.tuples ∧ dictionary.tuples ≤ 2) ∧
        checkIndex rows index none = .ok () := by
  simp only [checkBody, guard_eq_ok_iff, not_or, gt_iff_lt, Nat.not_lt, Nat.pos_iff_ne_zero, ne_eq]

theorem checkBody_sdcSingleZeros_iff :
    (⟨columns, rows, .sdcSingleZeros dictionary index⟩ : Group).checkBody = .ok () ↔
      dictionary.tuples = 1 ∧ checkIndex rows index none = .ok () := by
  simp only [checkBody, guard_eq_ok_iff, not_not]

theorem checkBody_uncompressed_iff :
    (⟨columns, rows, .uncompressed block⟩ : Group).checkBody = .ok () ↔
      block.validate = .ok () ∧ block.rows = rows ∧ block.cols = columns.length := by
  simp only [checkBody]
  cases block.validate with
  | error cause => simp
  | ok _ => simp only [guard_eq_ok_iff, not_or, not_not, true_and, and_true]

end Body

/-- What the check of a group asks for, part by part. -/
structure Accepted (group : Group) : Prop where
  nonempty : group.columns ≠ []
  sorted : group.columns.Pairwise (· < ·)
  dictionary : ∀ dictionary, group.body.dictionary? = some dictionary →
    dictionary.validate = .ok () ∧ dictionary.width = group.columns.length
  sized : ∀ codes, group.body.codes? = some codes → codes.Sized
  body : group.checkBody = .ok ()
  named : ∀ dictionary codes, group.body.dictionary? = some dictionary →
    group.body.codes? = some codes → ∀ code ∈ codes.toList, code < dictionary.tuples

theorem Accepted.wide (accepted : group.Accepted) {dictionary : Dictionary}
    (given : group.body.dictionary? = some dictionary) : dictionary.width ≠ 0 :=
  Nat.ne_of_gt (Dictionary.validate_eq_ok_iff.mp (accepted.dictionary dictionary given).1).1

/-- A group with tuples of its width is accepted if its codes name them and its body passes. -/
theorem Accepted.of_holds {dictionary : Dictionary} {tuples : List (List Cell)}
    (nonempty : group.columns ≠ []) (sorted : group.columns.Pairwise (· < ·))
    (given : group.body.dictionary? = some dictionary)
    (holds : dictionary.Holds group.columns.length tuples)
    (coded : ∀ codes, group.body.codes? = some codes →
      codes.Sized ∧ ∀ code ∈ codes.toList, code < tuples.length)
    (body : group.checkBody = .ok ()) : group.Accepted := by
  have positive : 0 < group.columns.length := List.length_pos_iff.mpr nonempty
  refine ⟨nonempty, sorted, ?_, fun codes here => (coded codes here).1, body, ?_⟩
  · intro other here
    obtain rfl : dictionary = other := Option.some.inj (given.symm.trans here)
    exact ⟨holds.validate positive, holds.wide⟩
  · intro other codes here coding
    obtain rfl : dictionary = other := Option.some.inj (given.symm.trans here)
    rw [holds.tuples_eq positive]
    exact (coded codes coding).2

theorem columns_of_validate (h : group.validate = .ok ()) :
    group.columns ≠ [] ∧ group.columns.Pairwise (· < ·) := by
  unfold validate at h
  by_cases none : group.columns.isEmpty
  · simp [none, bind, Except.bind, throw, throwThe, MonadExceptOf.throw] at h
  · by_cases sorted : group.columns.Pairwise (· < ·)
    · exact ⟨fun empty => none (List.isEmpty_iff.mpr empty), sorted⟩
    · simp [none, sorted, bind, Except.bind, throw, throwThe, MonadExceptOf.throw] at h

theorem validate_eq (nonempty : group.columns ≠ []) (sorted : group.columns.Pairwise (· < ·)) :
    group.validate = (do
      group.checkDictionary
      (group.body.codes?.elim (pure ()) CodeMap.validate : Except PackError Unit)
      group.checkBody
      group.checkCodes) := by
  have some_ : group.columns.isEmpty = false := by simpa using nonempty
  rw [validate, if_neg (by simp [some_]), if_neg (by simp [sorted])]
  cases group.body.codes? with
  | none => rfl
  | some codes => rfl

theorem validate_eq_ok_iff : group.validate = .ok () ↔ group.Accepted := by
  constructor
  · intro h
    obtain ⟨nonempty, sorted⟩ := columns_of_validate h
    rw [validate_eq nonempty sorted] at h
    obtain ⟨_, whole, h⟩ := bind_eq_ok h
    obtain ⟨_, words, h⟩ := bind_eq_ok h
    obtain ⟨_, body, named⟩ := bind_eq_ok h
    refine ⟨nonempty, sorted, checkDictionary_eq_ok_iff.mp whole, ?_, body,
      checkCodes_eq_ok_iff.mp named⟩
    intro codes given
    rw [given] at words
    exact CodeMap.validate_eq_ok_iff.mp words
  · rintro ⟨nonempty, sorted, whole, sized, body, named⟩
    have words : (group.body.codes?.elim (pure ()) CodeMap.validate : Except PackError Unit) =
        .ok () := by
      cases given : group.body.codes? with
      | none => rfl
      | some codes => exact CodeMap.validate_eq_ok_iff.mpr (sized codes given)
    rw [validate_eq nonempty sorted, checkDictionary_eq_ok_iff.mpr whole, words, body]
    exact checkCodes_eq_ok_iff.mpr named

end Group

end PackedMatrix
