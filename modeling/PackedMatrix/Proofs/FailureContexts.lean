import PackedMatrix.Cost
import PackedMatrix.Packed
import PackedMatrix.Proofs.AcceptedBitmaps
import PackedMatrix.Proofs.BuildFailures
import PackedMatrix.Proofs.GroupBuilds

namespace PackedMatrix

variable {α : Type}

namespace PackError

/-- A failure that wraps no other and does not name a group. -/
def Bare : PackError → Prop
  | unsupported .. | construction .. | inPhase .. | threadPool _ | fault _ => False
  | _ => True

/-- A failure with nothing behind it that comes from outside. -/
def Inner : PackError → Prop
  | construction _ _ source => source.Inner
  | inPhase _ source => source.Inner
  | threadPool _ | fault _ => False
  | _ => True

/-- A failure to which no phase has been added. -/
def Unphased : PackError → Prop
  | inPhase .. | fault _ => False
  | _ => True

variable {error : PackError}

theorem Bare.source?_eq (bare : error.Bare) : error.source? = none := by
  cases error <;> first | rfl | exact bare.elim

theorem Bare.unphased (bare : error.Bare) : error.Unphased := by
  cases error <;> first | exact trivial | exact bare.elim

theorem Bare.inner (bare : error.Bare) : error.Inner := by
  cases error <;> first | exact trivial | exact bare.elim

theorem Bare.inConstruction_eq (bare : error.Bare) (columns : List Nat) (encoding : Encoding) :
    error.inConstruction columns encoding = .construction columns encoding error := by
  cases error <;> first | rfl | exact bare.elim

theorem Unphased.duringPhase_eq (unphased : error.Unphased) (phase : Phase) :
    error.duringPhase phase = .inPhase phase error := by
  cases error <;> first | rfl | exact unphased.elim

/-- A failure of building a group over columns, with the failure that is behind it. -/
def Constructing (columns : List Nat) (encoding : Encoding) (error : PackError) : Prop :=
  ∃ cause : PackError, error = .construction columns encoding cause ∧ cause.Bare

theorem Constructing.inner {columns : List Nat} {encoding : Encoding}
    (constructing : error.Constructing columns encoding) : error.Inner := by
  obtain ⟨cause, rfl, bare⟩ := constructing
  exact bare.inner

/-- The failures along the sources of the first one. -/
inductive Causes : PackError → List PackError → Prop
  | last {error : PackError} (ends : error.source? = none) : Causes error [error]
  | next {error source : PackError} {rest : List PackError} (wraps : error.source? = some source)
      (causes : Causes source rest) : Causes error (error :: rest)

theorem exists_causes {error : PackError} (inner : error.Inner) :
    ∃ causes, Causes error causes ∧ error.chain = causes.map message := by
  induction error with
  | construction columns encoding source ih =>
    obtain ⟨rest, causes, texts⟩ := ih inner
    exact ⟨_, .next rfl causes, by rw [chain, texts, List.map_cons]⟩
  | inPhase phase source ih =>
    obtain ⟨rest, causes, texts⟩ := ih inner
    exact ⟨_, .next rfl causes, by rw [chain, texts, List.map_cons]⟩
  | threadPool => exact inner.elim
  | fault => exact inner.elim
  | _ => exact ⟨_, .last rfl, rfl⟩

end PackError

open PackError

theorem OnlyBreaks.bare {result : Except PackError α} (only : OnlyBreaks result) :
    FailsWith Bare result := by
  refine FailsWith.mono only ?_
  rintro failure ⟨cause, rfl⟩
  trivial

theorem Bitmap.bare_extract (columns : List Nat) (source : Source) :
    FailsWith Bare (extract columns source) := by
  refine .ite (.error trivial) ?_
  split
  next => exact .error trivial
  next => exact .ite (.error trivial) (.ok _)

theorem Bitmap.bare_validate (bitmap : Bitmap) (columns : List Nat) (rows : Nat) :
    FailsWith Bare (bitmap.validate columns rows) :=
  .mapError fun _ _ => trivial

theorem Block.bare_selectColumns (block : Block) (columns : List Nat) (transposed : Bool) :
    FailsWith Bare (block.selectColumns columns transposed) := by
  unfold selectColumns
  simp only
  split
  next => exact .error trivial
  next => exact .ite (.ok _) (.ok _)

theorem Block.bare_validate (block : Block) : FailsWith Bare block.validate := by
  unfold validate
  split
  next => exact .ite (.ok _) (.error trivial)
  next =>
    refine .ite (.error trivial) (.ite (.error trivial) (.ite (.error trivial) ?_))
    split
    next => exact .error trivial
    next => exact .ok _

theorem ColumnPlan.bare_validate (plans : List ColumnPlan) (cols : Nat) (settings : Settings) :
    FailsWith Bare (validate plans cols settings) :=
  .mapError fun _ _ => trivial

theorem ColumnCosts.bare_ofColumns (source : Source) (settings : Settings) (columns : List Nat) :
    FailsWith Bare (ofColumns source settings columns) :=
  .bind (Bitmap.bare_extract columns source) fun _ => .ok _

theorem ColumnCosts.bare_ofSource (source : Source) (settings : Settings) :
    FailsWith Bare (ofSource source settings) :=
  .mapM fun _ _ => bare_ofColumns source settings _

namespace Group

theorem bare_checkIndex (rows : Nat) (index : RowIndex) (codes : Option CodeMap) :
    FailsWith Bare (checkIndex rows index codes) := by
  have checked : FailsWith Bare index.validate := .mapError fun _ _ => trivial
  unfold checkIndex
  split
  next error failed => exact .error (checked error failed)
  next =>
    split
    next => exact .error trivial
    next =>
      split
      next => exact .error trivial
      next =>
        refine .ite (.error trivial) ?_
        split
        next => exact .ok _
        next => exact .ite (.error trivial) (.ok _)

theorem bare_checkBody (group : Group) : FailsWith Bare group.checkBody := by
  obtain ⟨columns, rows, body⟩ := group
  cases body with
  | empty => exact .ok _
  | const => exact .ite (.error trivial) (.ok _)
  | ddc => exact .ite (.error trivial) (.ok _)
  | ole => exact .mapError fun _ _ => trivial
  | rle => exact .mapError fun _ _ => trivial
  | sdc => exact .ite (.error trivial) (bare_checkIndex _ _ _)
  | sdcZeros _ index codes => exact bare_checkIndex rows index (some codes)
  | sdcSingle => exact .ite (.error trivial) (bare_checkIndex _ _ _)
  | sdcSingleZeros => exact .ite (.error trivial) (bare_checkIndex _ _ _)
  | uncompressed block =>
    unfold checkBody
    simp only
    split
    next error failed => exact .error (block.bare_validate error failed)
    next => exact .ite (.error trivial) (.ok _)

theorem bare_checkDictionary (group : Group) : FailsWith Bare group.checkDictionary := by
  unfold checkDictionary
  split
  next => exact .ok _
  next dictionary _ =>
    have checked : FailsWith Bare dictionary.validate := .ite (.error trivial) (.ok _)
    split
    next error failed => exact .error (checked error failed)
    next => exact .ite (.error trivial) (.ok _)

theorem bare_checkCodes (group : Group) : FailsWith Bare group.checkCodes := by
  unfold checkCodes
  split
  next =>
    split
    next => exact .ite (.error trivial) (.ok _)
    next => exact .ok _
  next => exact .ok _

theorem bare_validate (group : Group) : FailsWith Bare group.validate := by
  have codes : ∀ codes : CodeMap, FailsWith Bare codes.validate := by
    rintro (_ | _ | _ | _)
    all_goals first | exact .ok _ | exact .ite (.ok _) (.error trivial)
  refine .ite (.error trivial) (.ite (.error trivial) ?_)
  refine .bind (bare_checkDictionary group) fun _ => ?_
  have rest : FailsWith Bare (group.checkBody >>= fun _ => group.checkCodes) :=
    .bind (bare_checkBody group) fun _ => bare_checkCodes group
  cases group.body.codes? with
  | none => exact rest
  | some map => exact .bind (codes map) fun _ => rest

end Group

theorem Packed.bare_ofGroups (rows cols : Nat) (groups : List Group) :
    FailsWith Bare (ofGroups rows cols groups) := by
  have claimed : ∀ index owners, FailsWith Bare (claimAll rows cols index owners groups) := by
    induction groups with
    | nil => exact fun _ _ => .ok _
    | cons group rest ih =>
      intro index owners
      rw [claimAll]
      split
      next error failed => exact .error (group.bare_validate error failed)
      next =>
        refine .ite (.error trivial) ?_
        split
        next => exact .error trivial
        next => exact ih _ _
  unfold ofGroups
  split
  next error failed => exact .error (claimed _ _ error failed)
  next =>
    split
    next => exact .error trivial
    next => exact .ok _

namespace Group

variable {source : Source} {columns : List Nat} {encoding : Encoding}

theorem bare_encodeAs (columns : List Nat) (rows : Nat) {bitmap : Bitmap}
    (wide : bitmap.width ≠ 0) (settings : Settings) (source : Source)
    (requestable : encoding.isRequestable = true) :
    FailsWith Bare (encodeAs encoding columns rows bitmap settings source) := by
  cases encoding with
  | empty => cases requestable
  | const => cases requestable
  | ddc =>
    rw [encodeAs, Dictionary.count_eq wide]
    exact .ok _
  | ole => exact .bind (OffsetStreams.onlyBreaks_ofBitmap _ _).bare fun _ => .ok _
  | rle => exact .bind (RunStreams.onlyBreaks_ofBitmap _).bare fun _ => .ok _
  | sdc => exact (SparseShape.onlyBreaks_encode wide _).bare
  | uncompressed =>
    exact .ite (.error trivial) (.bind (Block.bare_selectColumns _ _ _) fun _ => .ok _)

theorem bare_encode (columns : List Nat) (rows : Nat) {bitmap : Bitmap}
    (wide : bitmap.width ≠ 0) (settings : Settings) (source : Source)
    (requestable : encoding.isRequestable = true) :
    FailsWith Bare (encode columns rows bitmap encoding settings source) := by
  have ordered : (bitmap.ordered settings).width ≠ 0 := by rwa [Bitmap.width_ordered]
  exact .ite (.ok _) (.ite (onlyBreaks_const _ _ wide).bare
    (.bind (bare_encodeAs columns rows ordered settings source requestable) fun _ => .ok _))

theorem constructing_ofBitmap (nonempty : columns ≠ []) (rows : Nat) (bitmap : Bitmap)
    (settings : Settings) (source : Source) (requestable : encoding.isRequestable = true) :
    FailsWith (Constructing columns encoding)
      (ofBitmap columns rows bitmap encoding settings source) := by
  have wrapped : ∀ cause : PackError, cause.Bare →
      (cause.inConstruction columns encoding).Constructing columns encoding :=
    fun cause bare => ⟨cause, bare.inConstruction_eq columns encoding, bare⟩
  intro error failed
  cases checked : bitmap.validate columns rows with
  | error cause =>
    rw [ofBitmap, checked] at failed
    cases failed
    exact wrapped cause (bitmap.bare_validate columns rows cause checked)
  | ok _ =>
    rw [ofBitmap_of_validate checked] at failed
    have wide := Bitmap.width_ne_zero_of_validate checked nonempty
    exact FailsWith.mapError (.mono (bare_encode columns rows wide settings source requestable)
      wrapped) error failed

theorem constructing_ofColumns (source : Source) (nonempty : columns ≠ []) (settings : Settings)
    (requestable : encoding.isRequestable = true) :
    FailsWith (Constructing columns encoding) (ofColumns source columns encoding settings) := by
  refine .bind (.mapError (.mono (Bitmap.bare_extract columns source) ?_)) fun bitmap =>
    constructing_ofBitmap nonempty _ bitmap _ _ requestable
  exact fun cause bare => ⟨cause, bare.inConstruction_eq columns encoding, bare⟩

/-- A plan fails with its columns or, if it is split, with those that are not empty. -/
theorem constructing_ofPlan {plan : ColumnPlan} {settings : Settings} {error : PackError}
    (nonempty : plan.columns ≠ []) (requestable : plan.encoding.isRequestable = true)
    (h : ofPlan source settings plan = .error error) : ∃ columns,
      error.Constructing columns plan.encoding ∧
      (Splits source plan → columns = plan.columns.filter (!source.isColumnEmpty ·)) ∧
      (¬ Splits source plan → columns = plan.columns) := by
  by_cases splits : Splits source plan
  · refine ⟨_, ?_, fun _ => rfl, fun whole => absurd splits whole⟩
    rw [ofPlan_of_splits splits, splitEmpty] at h
    split at h
    next => cases h
    next others =>
      have some_ := fun none_ => others (List.isEmpty_iff.mpr none_)
      exact FailsWith.bind (constructing_ofColumns _ some_ _ requestable) (fun _ => .ok _) error h
  · refine ⟨_, ?_, fun split => absurd split splits, fun _ => rfl⟩
    rw [ofPlan_of_not_splits splits] at h
    exact FailsWith.bind (constructing_ofColumns _ nonempty _ requestable) (fun _ => .ok _) error h

end Group

end PackedMatrix
