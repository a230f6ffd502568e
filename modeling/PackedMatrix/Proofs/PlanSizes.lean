import PackedMatrix.Compressor
import PackedMatrix.Proofs.SplitProfiles

namespace PackedMatrix

theorem Group.baseSize_add (columns more : Nat) :
    baseSize (columns + more) = baseSize columns + more * 4 := by
  simp only [baseSize]
  omega

theorem Dictionary.estimateSize_add (tuples columns more : Nat) :
    estimateSize tuples (columns + more) = estimateSize tuples columns + more * (tuples * 8) := by
  simp only [estimateSize, Nat.mul_add, Nat.add_mul, Nat.mul_left_comm more, Nat.mul_assoc]
  omega

theorem Block.estimateSize_le_add (rows columns more nonZeros : Nat) :
    estimateSize rows columns nonZeros ≤ estimateSize rows (columns + more) nonZeros := by
  have cells : rows * columns ≤ rows * (columns + more) :=
    Nat.mul_le_mul_left _ (Nat.le_add_right _ _)
  simp only [estimateSize]
  omega

namespace CostProfile

/-- The tuples in the dictionary of the group that is built when an encoding is asked for. -/
def dictionaryTuples (profile : CostProfile) (encoding : Encoding) : Nat :=
  let withZero := profile.tuples + if profile.zeros > 0 then 1 else 0
  if profile.isEmpty then 0
  else if profile.isConst then 1
  else
    match encoding, profile.sparse with
    | .ddc, _ => withZero
    | .ole, _ => profile.tuples
    | .rle, _ => profile.tuples
    | .sdc, some (.singleZeros, _) => 1
    | .sdc, some (.single, _) => 1 + if profile.zeros > 0 then 1 else 0
    | .sdc, some (.zeros, _) => profile.tuples
    | .sdc, some (.general, _) => withZero
    | _, _ => 0

/-- Bytes that more columns of zeros add to the group, besides their numbers: eight for each tuple
of the dictionary, or what a copy of the columns grows by. -/
def addedBytes (profile : CostProfile) (encoding : Encoding) (more : Nat) : Nat :=
  if encoding = .uncompressed ∧ profile.isEmpty = false ∧ profile.isConst = false then
    Block.estimateSize profile.rows (profile.columns + more) profile.nonZeros -
      Block.estimateSize profile.rows profile.columns profile.nonZeros
  else more * (profile.dictionaryTuples encoding * 8)

theorem addedBytes_of_isEmpty {profile : CostProfile} (empty : profile.isEmpty = true)
    (encoding : Encoding) (more : Nat) : profile.addedBytes encoding more = 0 := by
  simp only [addedBytes, dictionaryTuples, empty, Bool.true_eq_false, false_and, and_false,
    ↓reduceIte, Nat.zero_mul, Nat.mul_zero]

theorem addedBytes_of_isConst {profile : CostProfile} (filled : ¬ profile.isEmpty = true)
    (const : profile.isConst = true) (encoding : Encoding) (more : Nat) :
    profile.addedBytes encoding more = more * (1 * 8) := by
  simp only [addedBytes, dictionaryTuples, filled, const, Bool.true_eq_false, and_false,
    Bool.false_eq_true, ↓reduceIte]

/-- Every further column takes the four bytes of its number and what it adds to the group. -/
theorem sizeOf_add_columns {profile : CostProfile} {encoding : Encoding} {size : Nat}
    (sized : profile.sizeOf encoding = some size) (more : Nat) :
    ({ profile with columns := profile.columns + more }).sizeOf encoding =
      some (size + (more * 4 + profile.addedBytes encoding more)) := by
  have empty_ : ({ profile with columns := profile.columns + more }).isEmpty =
    profile.isEmpty := rfl
  have const_ : ({ profile with columns := profile.columns + more }).isConst =
    profile.isConst := rfl
  unfold sizeOf at sized ⊢
  rw [empty_, const_]
  by_cases empty : profile.isEmpty = true
  · rw [if_pos empty] at sized ⊢
    cases sized
    rw [addedBytes_of_isEmpty empty, Group.baseSize_add, Nat.add_zero]
  rw [if_neg empty] at sized ⊢
  by_cases const : profile.isConst = true
  · rw [if_pos const] at sized ⊢
    cases sized
    rw [addedBytes_of_isConst empty const, Group.constSize, Group.constSize, Group.baseSize_add,
      Dictionary.estimateSize_add]
    congr 1
    omega
  rw [if_neg const] at sized ⊢
  cases encoding with
  | empty => cases sized
  | const => cases sized
  | uncompressed =>
    cases sized
    have copied := Block.estimateSize_le_add profile.rows profile.columns more profile.nonZeros
    simp only [addedBytes, empty, const, and_self, ↓reduceIte, uncompressedSize,
      Group.baseSize_add]
    congr 1
    omega
  | sdc =>
    dsimp only at sized ⊢
    split at sized
    next shape indexSize frequent largest found most =>
      cases sized
      simp only [addedBytes, dictionaryTuples, reduceCtorEq, false_and, empty, const,
        Bool.false_eq_true, ↓reduceIte, found]
      congr 1
      cases shape <;>
        simp only [SparseShape.estimateSize, Group.baseSize_add, Dictionary.estimateSize_add] <;>
        omega
    next => cases sized
  | _ =>
    cases sized
    simp only [addedBytes, dictionaryTuples, reduceCtorEq, false_and, empty, const,
      Bool.false_eq_true, ↓reduceIte, streamSize, Group.baseSize_add, Dictionary.estimateSize_add]
    congr 1
    omega

end CostProfile

namespace ColumnPlan

/-- Some columns of a transposed sparse block store nothing, and others do. -/
def isMixed (source : Source) (plan : ColumnPlan) : Bool :=
  source.transposed && source.block.isSparse && plan.columns.any source.isColumnEmpty &&
    plan.columns.any (!source.isColumnEmpty ·)

/-- Bytes of one group for all columns of a plan. -/
def jointSize (source : Source) (blockSize : Nat) (plan : ColumnPlan) : Nat :=
  ((CostProfile.ofColumns source plan.columns blockSize).sizeOf plan.encoding).getD 0

/-- Bytes of the groups that are built for a plan: of a mixed one, of an empty group, and of a group
for the columns that store something. -/
def builtSize (source : Source) (blockSize : Nat) (plan : ColumnPlan) : Nat :=
  if plan.isMixed source then
    let profile := CostProfile.ofColumns source plan.columns blockSize
    let others := plan.columns.countP (!source.isColumnEmpty ·)
    Group.baseSize (plan.columns.length - others) +
      (({ profile with columns := others }).sizeOf plan.encoding).getD 0
  else plan.jointSize source blockSize

/-- Bytes that the empty columns of a mixed plan would add to the group of the others. -/
def savedBytes (source : Source) (blockSize : Nat) (plan : ColumnPlan) : Nat :=
  if plan.isMixed source then
    let profile := CostProfile.ofColumns source plan.columns blockSize
    let others := plan.columns.countP (!source.isColumnEmpty ·)
    ({ profile with columns := others }).addedBytes plan.encoding (plan.columns.length - others)
  else 0

end ColumnPlan

section Sizes

variable {source : Source} {settings : Settings} {plan : ColumnPlan}

theorem Group.size_ofColumns (valid : source.WellFormed) {columns : List Nat}
    (nonempty : columns ≠ []) {encoding : Encoding} {group : Group}
    (h : ofColumns source columns encoding settings = .ok group) :
    (CostProfile.ofColumns source columns settings.offsetBlockSize).sizeOf encoding =
      some group.size := by
  obtain ⟨bitmap, extracted, made⟩ := bind_eq_ok h
  have extracted := mapError_eq_ok extracted
  obtain ⟨sorted, inside, fit, shown⟩ := Bitmap.extract_eq_ok valid extracted
  rw [Bitmap.extract_of_inside valid sorted inside] at extracted
  cases extracted
  exact CostProfile.sizeOf_of_ofBitmap valid nonempty sorted inside fit shown made

theorem CostProfile.tuples_ofColumns_nil (valid : source.WellFormed) (blockSize : Nat) :
    (ofColumns source [] blockSize).tuples = 0 := by
  have rows : Bitmap.tupleRows [] source = [] := by
    rw [Bitmap.tupleRows_eq valid .nil (by simp)]
    exact TupleRow.nonzeroFrom_eq_nil fun _ _ => rfl
  simp [ofColumns, ofBitmap, rows, Bitmap.ofTupleRows, Grouping.start, Bitmap.tuples]

theorem ColumnPlan.isMixed_iff : plan.isMixed source = true ↔
    Group.Splits source plan ∧ plan.columns.filter (!source.isColumnEmpty ·) ≠ [] := by
  constructor
  · intro mixed
    simp only [isMixed, Bool.and_eq_true, List.any_eq_true] at mixed
    obtain ⟨⟨⟨transposed, sparse⟩, col, member, empty⟩, col', member', other⟩ := mixed
    refine ⟨⟨transposed, sparse, ?_, List.ne_nil_of_mem (List.mem_filter.mpr ⟨member, empty⟩)⟩,
      List.ne_nil_of_mem (List.mem_filter.mpr ⟨member', other⟩)⟩
    have differs : col ≠ col' := by
      rintro rfl
      simp [empty] at other
    by_contra few
    obtain ⟨only, alone⟩ := List.length_eq_one_iff.mp (show plan.columns.length = 1 by
      have := List.length_pos_of_mem member
      omega)
    rw [alone, List.mem_singleton] at member member'
    exact differs (member.trans member'.symm)
  · rintro ⟨splits, others⟩
    obtain ⟨col, member⟩ := List.exists_mem_of_ne_nil _ splits.empty
    obtain ⟨col', member'⟩ := List.exists_mem_of_ne_nil _ others
    simp only [isMixed, splits.transposed, splits.sparse, Bool.true_and, Bool.and_eq_true,
      List.any_eq_true]
    exact ⟨⟨col, List.mem_filter.mp member⟩, ⟨col', List.mem_filter.mp member'⟩⟩

section Plan

variable (valid : source.WellFormed) (sorted : plan.columns.Pairwise (· < ·))
  (inside : ∀ col ∈ plan.columns, col < source.cols)

include valid sorted inside

/-- The profile of the columns of a split plan that are not empty. -/
theorem CostProfile.ofColumns_others (splits : Group.Splits source plan) (blockSize : Nat) :
    ofColumns source (plan.columns.filter (!source.isColumnEmpty ·)) blockSize =
      { ofColumns source plan.columns blockSize with
        columns := (plan.columns.filter (!source.isColumnEmpty ·)).length } := by
  refine ofColumns_filter valid sorted inside ?_ blockSize
  intro col member empty row inRow
  exact Group.zero_of_isColumnEmpty valid splits.transposed splits.sparse inRow (inside col member)
    (by simpa using empty)

/-- If all columns are empty, so is the group that is estimated for them. -/
theorem ColumnPlan.jointSize_of_empty (splits : Group.Splits source plan)
    (none_ : plan.columns.filter (!source.isColumnEmpty ·) = []) (blockSize : Nat) :
    plan.jointSize source blockSize = Group.baseSize plan.columns.length := by
  have part := CostProfile.ofColumns_others valid sorted inside splits blockSize
  rw [none_] at part
  have tuples : (CostProfile.ofColumns source plan.columns blockSize).tuples = 0 :=
    (congrArg CostProfile.tuples part).symm.trans (CostProfile.tuples_ofColumns_nil valid _)
  have empty : (CostProfile.ofColumns source plan.columns blockSize).isEmpty = true := by
    rw [CostProfile.isEmpty, tuples]
    rfl
  obtain ⟨_, _, fit, _⟩ := Bitmap.extract_eq_ok valid (Bitmap.extract_of_inside valid sorted inside)
  rw [jointSize]
  unfold CostProfile.sizeOf
  rw [if_pos empty, Option.getD_some]
  exact congrArg Group.baseSize fit.width

/-- The second group of a mixed plan costs 16 bytes, and saves what the empty columns would add. -/
theorem ColumnPlan.builtSize_add_savedBytes (requestable : plan.encoding.isRequestable = true)
    (blockSize : Nat) :
    plan.builtSize source blockSize + plan.savedBytes source blockSize =
      plan.jointSize source blockSize + if plan.isMixed source then 16 else 0 := by
  by_cases mixed : plan.isMixed source = true
  · obtain ⟨splits, _⟩ := isMixed_iff.mp mixed
    have part := CostProfile.ofColumns_others valid sorted inside splits blockSize
    have inside' : ∀ col ∈ plan.columns.filter (!source.isColumnEmpty ·), col < source.cols :=
      fun col member => inside col (List.mem_filter.mp member).1
    obtain ⟨_, _, fit, _⟩ :=
      Bitmap.extract_eq_ok valid (Bitmap.extract_of_inside valid sorted inside)
    obtain ⟨_, _, fit', _⟩ :=
      Bitmap.extract_eq_ok valid (Bitmap.extract_of_inside valid (sorted.filter _) inside')
    obtain ⟨size, sized⟩ := CostProfile.exists_sizeOf fit' requestable blockSize
    rw [← CostProfile.ofColumns, part, ← List.countP_eq_length_filter] at sized
    have fewer : plan.columns.countP (!source.isColumnEmpty ·) ≤ plan.columns.length :=
      List.countP_le_length
    have whole := CostProfile.sizeOf_add_columns sized
      (plan.columns.length - plan.columns.countP (!source.isColumnEmpty ·))
    have width : plan.columns.countP (!source.isColumnEmpty ·) +
        (plan.columns.length - plan.columns.countP (!source.isColumnEmpty ·)) =
          (CostProfile.ofColumns source plan.columns blockSize).columns := by
      rw [Nat.add_sub_cancel' fewer]
      exact fit.width.symm
    simp only [width] at whole
    rw [builtSize, if_pos mixed, savedBytes, if_pos mixed, if_pos mixed, jointSize]
    simp only [sized, whole, Option.getD_some, Group.baseSize]
    omega
  · rw [builtSize, if_neg mixed, savedBytes, if_neg mixed, if_neg mixed]

/-- The groups of a plan take what the plan is built as. -/
theorem Group.size_ofPlan (nonempty : plan.columns ≠ []) {groups : List Group}
    (h : ofPlan source settings plan = .ok groups) :
    total (groups.map size) = plan.builtSize source settings.offsetBlockSize := by
  by_cases splits : Splits source plan
  · rw [ofPlan_of_splits splits, splitEmpty] at h
    split at h
    next none_ =>
      cases h
      have none_ := List.isEmpty_iff.mp none_
      have pure_ : ¬ plan.isMixed source = true := fun mixed =>
        (ColumnPlan.isMixed_iff.mp mixed).2 none_
      have whole : plan.columns.filter source.isColumnEmpty = plan.columns := by
        rw [List.filter_eq_self]
        intro col member
        simpa using List.filter_eq_nil_iff.mp none_ col member
      rw [ColumnPlan.builtSize, if_neg pure_,
        ColumnPlan.jointSize_of_empty valid sorted inside splits none_, whole]
      rfl
    next some_ =>
      obtain ⟨second, run, h⟩ := bind_eq_ok h
      cases h
      have others : plan.columns.filter (!source.isColumnEmpty ·) ≠ [] :=
        fun none => some_ (List.isEmpty_iff.mpr none)
      have taken := size_ofColumns valid others run
      rw [CostProfile.ofColumns_others valid sorted inside splits,
        ← List.countP_eq_length_filter] at taken
      have first : plan.columns.length - plan.columns.countP (!source.isColumnEmpty ·) =
          (plan.columns.filter source.isColumnEmpty).length := by
        have counted := @List.length_eq_countP_add_countP _ source.isColumnEmpty plan.columns
        simp only [Bool.not_eq_true, Bool.decide_eq_false] at counted
        rw [← List.countP_eq_length_filter]
        omega
      rw [ColumnPlan.builtSize, if_pos (ColumnPlan.isMixed_iff.mpr ⟨splits, others⟩)]
      simp only [taken, first, Option.getD_some]
      rfl
  · have pure_ : ¬ plan.isMixed source = true := fun mixed =>
      splits (ColumnPlan.isMixed_iff.mp mixed).1
    rw [ofPlan_of_not_splits splits] at h
    obtain ⟨group, run, h⟩ := bind_eq_ok h
    cases h
    rw [ColumnPlan.builtSize, if_neg pure_, ColumnPlan.jointSize,
      size_ofColumns valid nonempty run]
    rfl

end Plan

end Sizes

end PackedMatrix
