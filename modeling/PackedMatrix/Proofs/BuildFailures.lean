import PackedMatrix.Proofs.BlockCopies
import PackedMatrix.Proofs.Renumbering
import PackedMatrix.Group.Build

namespace PackedMatrix

variable {α β : Type}

/-- The result is no failure other than a broken invariant. -/
def OnlyBreaks (result : Except PackError α) : Prop :=
  ∀ error, result = .error error → ∃ cause, error = .invariant cause

namespace OnlyBreaks

theorem ok (value : α) : OnlyBreaks (.ok value) := FailsWith.ok value

theorem breach (cause : Breach) : OnlyBreaks (.error (.invariant cause) : Except PackError α) :=
  FailsWith.error ⟨cause, rfl⟩

theorem bind {first : Except PackError α} {next : α → Except PackError β}
    (start : OnlyBreaks first) (rest : ∀ value, OnlyBreaks (next value)) :
    OnlyBreaks (first >>= next) := FailsWith.bind start rest

theorem map {first : Except PackError α} (change : α → β) (start : OnlyBreaks first) :
    OnlyBreaks (first.map change) := FailsWith.map change start

end OnlyBreaks

open OnlyBreaks

namespace Merger

theorem onlyBreaks_markSlots (slots : Array (Option Nat)) (claims : List Claim) :
    OnlyBreaks (markSlots slots claims) := by
  induction claims generalizing slots with
  | nil => exact ok _
  | cons claim rest ih =>
    rw [markSlots]
    split
    next => exact breach _
    next => exact breach _
    next => exact ih _

theorem onlyBreaks_finish (tuples : Nat) (merged : List Claim) :
    OnlyBreaks (finish tuples merged) := by
  unfold finish
  split
  next => exact breach _
  next => exact ok _

theorem onlyBreaks_insert (merger : Merger) (lists : List (List Nat)) :
    OnlyBreaks (merger.insert lists) := by
  have marked := onlyBreaks_markSlots (Array.replicate merger.rows none) (claims lists).flatten
  unfold insert
  split
  next => exact onlyBreaks_finish _ _
  next =>
    split
    next error failed =>
      obtain ⟨cause, rfl⟩ := marked _ failed
      exact breach cause
    next => exact onlyBreaks_finish _ _

theorem onlyBreaks_insertExcluding (merger : Merger) (lists : List (List Nat)) (excluded : Nat) :
    OnlyBreaks (merger.insertExcluding lists excluded) := by
  have marked := onlyBreaks_markSlots (Array.replicate merger.rows none) (claims lists).flatten
  unfold insertExcluding
  simp only
  split
  next => exact breach _
  next =>
    split
    next => exact breach _
    next =>
      split
      next error failed =>
        split at failed
        next => cases failed
        next =>
          obtain ⟨cause, rfl⟩ := OnlyBreaks.map _ marked _ failed
          exact breach cause
      next =>
        split
        next => exact breach _
        next => exact onlyBreaks_finish _ _

end Merger

theorem Dictionary.onlyBreaks_moveFrequentToLast {dictionary : Dictionary}
    (wide : dictionary.width ≠ 0) (bitmap : Bitmap) (rows frequent : Nat) :
    OnlyBreaks (dictionary.moveFrequentToLast bitmap rows frequent) := by
  unfold moveFrequentToLast
  simp only [count_eq wide, mapError_ok, Bind.bind, Except.bind]
  split
  next => exact breach _
  next =>
    split
    next => exact ok _
    next => exact ok _

theorem SparseShape.onlyBreaks_encode {bitmap : Bitmap} (wide : bitmap.width ≠ 0) (rows : Nat) :
    OnlyBreaks (encode bitmap rows) := by
  unfold encode
  split
  next => exact breach _
  next => exact ok _
  next => exact (Dictionary.onlyBreaks_moveFrequentToLast wide _ _ _).bind fun _ => ok _
  next => exact (Merger.onlyBreaks_insert _ _).bind fun _ => ok _
  next =>
    refine (Dictionary.onlyBreaks_moveFrequentToLast wide _ _ _).bind fun _ => ?_
    exact (Merger.onlyBreaks_insertExcluding _ _ _).bind fun _ => ok _

theorem OffsetStreams.onlyBreaks_ofBitmap (bitmap : Bitmap) (blockSize : Nat) :
    OnlyBreaks (ofBitmap bitmap blockSize) := by
  unfold ofBitmap
  simp only
  split
  next => exact breach _
  next =>
    split
    next => exact breach _
    next => exact ok _

theorem RunStreams.onlyBreaks_ofBitmap (bitmap : Bitmap) : OnlyBreaks (ofBitmap bitmap) := by
  unfold ofBitmap
  simp only
  split
  next => exact breach _
  next => exact ok _

namespace Group

variable {source : Source} {columns : List Nat} {bitmap : Bitmap} {settings : Settings}
  {encoding : Encoding}

theorem onlyBreaks_const (columns : List Nat) (rows : Nat) {dictionary : Dictionary}
    (wide : dictionary.width ≠ 0) : OnlyBreaks (Group.const columns rows dictionary) := by
  unfold Group.const
  simp only [Dictionary.count_eq wide, mapError_ok, Bind.bind, Except.bind]
  split
  next => exact breach _
  next => exact ok _

/-- The encodings that can be asked for fail on broken invariants only. -/
theorem onlyBreaks_encodeAs (valid : source.WellFormed) (nonempty : columns ≠ [])
    (sorted : columns.Pairwise (· < ·)) (inside : ∀ col ∈ columns, col < source.cols)
    (wide : bitmap.width ≠ 0) (requestable : encoding.isRequestable = true) :
    OnlyBreaks (encodeAs encoding columns source.rows bitmap settings source) := by
  cases encoding with
  | empty => cases requestable
  | const => cases requestable
  | ddc =>
    rw [encodeAs, Dictionary.count_eq wide]
    exact ok _
  | ole => exact (OffsetStreams.onlyBreaks_ofBitmap _ _).bind fun _ => ok _
  | rle => exact (RunStreams.onlyBreaks_ofBitmap _).bind fun _ => ok _
  | sdc => exact SparseShape.onlyBreaks_encode wide _
  | uncompressed =>
    obtain ⟨copy, copied, _⟩ := Block.selectColumns_eq_ok valid nonempty sorted inside
    rw [encodeAs, if_neg (fun differs => differs rfl), copied]
    exact ok _

theorem ofBitmap_of_validate {rows : Nat}
    (accepted : bitmap.validate columns rows = .ok ()) :
    ofBitmap columns rows bitmap encoding settings source =
      (encode columns rows bitmap encoding settings source).mapError
        (·.inConstruction columns encoding) := by
  rw [ofBitmap, accepted]
  rfl

/-- A group is refused as unsupported exactly if its bitmap has neither no tuple nor only one, in
all rows, and an encoding was asked for that is found and not chosen. -/
theorem ofBitmap_unsupported_iff (valid : source.WellFormed) (nonempty : columns ≠ [])
    (sorted : columns.Pairwise (· < ·)) (inside : ∀ col ∈ columns, col < source.cols)
    (fit : bitmap.WellFormed columns.length source.rows) :
    (∃ error, ofBitmap columns source.rows bitmap encoding settings source = .error error ∧
        error.isUnsupported = true) ↔
      bitmap.lists ≠ [] ∧ ¬ (bitmap.tuples = 1 ∧ (bitmap.list 0).length = source.rows) ∧
        encoding.isRequestable = false := by
  have broken : ∀ result : Except PackError Group, OnlyBreaks result →
      ¬ ∃ error, result.mapError (·.inConstruction columns encoding) = .error error ∧
        error.isUnsupported = true := by
    rintro result only ⟨error, failed, named⟩
    cases result with
    | ok group => cases failed
    | error cause =>
      obtain ⟨breach, rfl⟩ := only cause rfl
      cases failed
      cases named
  have wide := fit.wide nonempty
  have wide' : (if settings.sortByFrequency then bitmap.sortByFrequency else bitmap).width ≠ 0 := by
    split
    next => rwa [Bitmap.width_sortByFrequency]
    next => exact wide
  rw [ofBitmap_of_validate fit.validate]
  unfold encode
  by_cases filled : bitmap.lists = []
  · rw [if_pos (List.isEmpty_iff.mpr filled)]
    exact iff_of_false (broken _ (ok _)) fun h => h.1 filled
  · rw [if_neg fun empty => filled (List.isEmpty_iff.mp empty)]
    by_cases full : bitmap.tuples = 1 ∧ (bitmap.list 0).length = source.rows
    · rw [if_pos full]
      exact iff_of_false (broken _ (onlyBreaks_const _ _ wide)) fun h => h.2.1 full
    · rw [if_neg full]
      cases requestable : encoding.isRequestable with
      | true =>
        refine iff_of_false (broken _ ?_) fun h => by cases h.2.2
        exact (onlyBreaks_encodeAs valid nonempty sorted inside wide' requestable).bind
          fun _ => ok _
      | false =>
        refine iff_of_true ?_ ⟨filled, full, rfl⟩
        cases encoding with
        | empty => exact ⟨_, rfl, rfl⟩
        | const => exact ⟨_, rfl, rfl⟩
        | ddc => cases requestable
        | ole => cases requestable
        | rle => cases requestable
        | sdc => cases requestable
        | uncompressed => cases requestable

end Group

end PackedMatrix
