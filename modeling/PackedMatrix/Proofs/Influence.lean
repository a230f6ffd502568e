import PackedMatrix.Compressor

namespace PackedMatrix

namespace Settings

/-- The settings that the phases read, the others at a value of their own. -/
def core (settings : Settings) : Settings :=
  { settings with
    parallelism := 1
    transposeInput := .auto
    transposeRowThreshold := 0
    fallbackOnError := false
    codec := .zstd }

section Range

variable {settings normal : Settings}

/-- Settings are brought into range if they list encodings that can be asked for, and no others. -/
theorem normalize_eq_ok_iff : settings.normalize = .ok normal ↔
    settings.encodings ≠ [] ∧ (∀ encoding ∈ settings.encodings, encoding.isRequestable = true) ∧
      normal = { settings with
        offsetBlockSize := max minOffsetBlockSize (min maxOffsetBlockSize settings.offsetBlockSize)
        parallelism := max 1 settings.parallelism
        encodings := orderedEncodings settings.encodings } := by
  unfold normalize
  split
  next none_ => exact iff_of_false nofun fun h => h.1 (List.isEmpty_iff.mp none_)
  next some_ =>
    split
    next encoding found =>
      refine iff_of_false nofun fun h => ?_
      have refused := List.find?_some found
      rw [h.2.1 encoding (List.mem_of_find?_eq_some found)] at refused
      cases refused
    next found =>
      have requestable : ∀ encoding ∈ settings.encodings, encoding.isRequestable = true := by
        simpa using found
      rw [Except.ok.injEq, and_iff_right (fun none_ => some_ (List.isEmpty_iff.mpr none_)),
        and_iff_right requestable, eq_comm]

theorem exists_normalize (some_ : settings.encodings ≠ [])
    (requestable : ∀ encoding ∈ settings.encodings, encoding.isRequestable = true) :
    ∃ normal, settings.normalize = .ok normal :=
  ⟨_, normalize_eq_ok_iff.mpr ⟨some_, requestable, rfl⟩⟩

theorem normalize_eq_ok (h : settings.normalize = .ok normal) :
    (∀ encoding, normal.allows encoding = true → encoding.isRequestable = true) ∧
      normal.investigateEstimate = settings.investigateEstimate := by
  obtain ⟨_, requestable, rfl⟩ := normalize_eq_ok_iff.mp h
  refine ⟨fun encoding allowed => requestable encoding ?_, rfl⟩
  have listed : encoding ∈ orderedEncodings settings.encodings := List.contains_iff_mem.mp allowed
  exact List.contains_iff_mem.mp (List.mem_filter.mp listed).2

theorem offsetBlockSize_of_normalize (h : settings.normalize = .ok normal) :
    0 < normal.offsetBlockSize ∧ normal.offsetBlockSize ≤ maxOffsetBlockSize := by
  obtain ⟨_, _, rfl⟩ := normalize_eq_ok_iff.mp h
  simp only [minOffsetBlockSize, maxOffsetBlockSize]
  omega

theorem parallelism_of_normalize (h : settings.normalize = .ok normal) :
    normal.parallelism = max 1 settings.parallelism := by
  obtain ⟨_, _, rfl⟩ := normalize_eq_ok_iff.mp h
  rfl

end Range

variable (settings : Settings)

theorem normalize_withFallback (fallback : Bool) :
    normalize { settings with fallbackOnError := fallback } =
      settings.normalize.map fun normal => { normal with fallbackOnError := fallback } := by
  unfold normalize
  simp only
  cases settings.encodings.isEmpty with
  | true => rfl
  | false => cases settings.encodings.find? (!·.isRequestable) <;> rfl

end Settings

section Core

variable (source : Source) (settings : Settings) (plans : List ColumnPlan)

theorem ColumnPlan.checkFrom_core (cols group : Nat) (owners : Array (Option Nat)) :
    checkFrom cols settings.core group owners plans =
      checkFrom cols settings group owners plans := by
  induction plans generalizing group owners with
  | nil => rfl
  | cons plan rest ih =>
    simp only [checkFrom, ih]
    rfl

theorem ColumnPlan.validate_core (cols : Nat) :
    validate plans cols settings.core = validate plans cols settings := by
  rw [validate, checkFrom_core, validate]

namespace Compressor

end Compressor

end Core

/-- The grouping is the default one or planned beforehand. -/
def Grouper.Shipped (grouper : Grouper) : Prop :=
  grouper = .cheapest ∨ ∃ plans, grouper = .fixed plans

namespace Compressor

variable {block : Block} {settings : Settings} {grouper : Grouper}

theorem group_core (shipped : grouper.Shipped) (settings : Settings) (costs : List ColumnCosts)
    (cols : Nat) : group costs cols settings.core grouper = group costs cols settings grouper := by
  rcases shipped with rfl | ⟨plans, rfl⟩
  · exact ColumnPlan.validate_core settings _ cols
  · exact ColumnPlan.validate_core settings plans cols

/-- Whether a failure is to be handed on has no influence on an attempt. -/
theorem run_withFallback (shipped : grouper.Shipped) (fallback : Bool) :
    run block { settings with fallbackOnError := fallback } grouper =
      run block settings grouper := by
  let other : Settings := { settings with fallbackOnError := fallback }
  have classified : ∀ source, classify source other grouper = classify source settings grouper :=
    fun _ => rfl
  have grouped : ∀ costs cols, group costs cols other grouper =
      group costs cols settings grouper := fun costs cols =>
    (group_core shipped other costs cols).symm.trans (group_core shipped settings costs cols)
  have built : ∀ plans stats, build block other plans stats = build block settings plans stats :=
    fun _ _ => rfl
  simp only [run, classified, grouped, built, other]

end Compressor

end PackedMatrix
