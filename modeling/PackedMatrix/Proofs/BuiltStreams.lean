import PackedMatrix.Proofs.StreamChecks

namespace PackedMatrix

namespace Streams

theorem pointers_ofLists {lists : List (List Nat)} (few : lists.flatten.length ≤ maxIndex) :
    (ofLists lists).ptr.toList.map UInt32.toNat =
      (List.range (lists.length + 1)).map (Segments.offset lists) := by
  rw [ptr_ofLists, Array.toList_map, Segments.pointers, List.map_map, List.map_map]
  exact List.map_congr_left fun i _ => toNat_pointer few i

/-- The pointers of streams fit if the test accepts a pointer and the same one moved by the length
of a stream. -/
theorem pointersFit_ofLists {lists : List (List Nat)} (few : lists.flatten.length ≤ maxIndex)
    (test : Nat → Nat → Bool)
    (tests : ∀ list ∈ lists, ∀ first, test first (first + list.length) = true) :
    (ofLists lists).pointersFit lists.length test = true := by
  simp only [pointersFit, pointers_ofLists few, Bool.and_eq_true, beq_iff_eq, List.length_map,
    List.length_range, List.all_eq_true]
  refine ⟨⟨trivial, ?_⟩, ?_⟩
  · intro pair member
    obtain ⟨i, bound, rfl⟩ := List.mem_iff_getElem.mp member
    simp only [List.length_zip, List.length_drop, List.length_map, List.length_range] at bound
    have inside : i < lists.length := by omega
    have moved := tests lists[i] (List.getElem_mem inside) (Segments.offset lists i)
    rw [← Segments.offset_succ inside] at moved
    simpa [Nat.add_comm 1 i] using moved
  · rw [List.range_succ, List.map_append, List.map_singleton, List.getLast?_concat,
      Segments.offset_length, size_data_ofLists]

end Streams

namespace OffsetStreams

variable {bitmap : Bitmap} {columns rows blockSize : Nat} {offsets : OffsetStreams}

theorem check_ofBitmap (valid : bitmap.WellFormed columns rows)
    (h : ofBitmap bitmap blockSize = .ok offsets) : offsets.check bitmap.tuples rows = .ok () := by
  obtain ⟨_, _, _, streams, few⟩ := ofBitmap_eq_ok valid h
  have fit := Streams.pointersFit_ofLists few (fun first last => decide (first ≤ last)) (by simp)
  rw [List.length_map] at fit
  rw [check, streams, Bitmap.tuples, fit]
  refine checkFrom_eq_ok_iff.mpr fun i _ bound => ?_
  have inside : i < bitmap.tuples := by
    rw [Bitmap.tuples]
    omega
  exact ⟨_, rowsOf_ofBitmap valid h inside, fun row member => valid.row_lt member⟩

/-- Streams of blocks in range are made unless they are too long. -/
theorem exists_ofBitmap_iff (positive : 0 < blockSize)
    (most : blockSize ≤ Settings.maxOffsetBlockSize) :
    (∃ offsets, ofBitmap bitmap blockSize = .ok offsets) ↔
      total (bitmap.lists.map (streamLength blockSize)) ≤ maxIndex := by
  have ranged : ¬ (blockSize = 0 ∨ blockSize > Settings.maxOffsetBlockSize) := by omega
  unfold ofBitmap
  simp only [if_neg ranged]
  split
  next long => exact ⟨fun ⟨_, made⟩ => (nomatch made), fun few => absurd few (Nat.not_le.mpr long)⟩
  next few => exact ⟨fun _ => Nat.le_of_not_lt few, fun _ => ⟨_, rfl⟩⟩

end OffsetStreams

namespace GapRun

/-- The row behind the last run that pairs denote. -/
def stopFrom (stop : Nat) : List GapRun → Nat
  | [] => stop
  | pair :: rest => stopFrom (stop + pair.gap + pair.length) rest

theorem stopFrom_append (stop : Nat) (front back : List GapRun) :
    stopFrom stop (front ++ back) = stopFrom (stopFrom stop front) back := by
  induction front generalizing stop with
  | nil => rfl
  | cons pair rest ih => exact ih _

theorem stopFrom_replicate (stop count : Nat) (pair : GapRun) :
    stopFrom stop (List.replicate count pair) = stop + count * (pair.gap + pair.length) := by
  induction count generalizing stop with
  | zero => simp [stopFrom]
  | succ count ih =>
    rw [List.replicate_succ, stopFrom, ih, Nat.succ_mul]
    omega

/-- The pairs of one run reach as far as the run. -/
theorem stopFrom_split (stop gap length : Nat) :
    stopFrom stop (split gap length) = stop + gap + length := by
  have skips := Nat.div_mul_le_self (gap - 1) maxWord
  have parts := Nat.div_add_mod' (length - min length maxWord) maxWord
  have part := Nat.min_le_left length maxWord
  simp only [split, stopFrom_append, stopFrom, stopFrom_replicate, Nat.add_zero, Nat.zero_add]
  split
  next none_ =>
    simp only [stopFrom]
    omega
  next =>
    simp only [stopFrom]
    omega

theorem getLast?_runsFrom {stop : Nat} {pairs : List GapRun} {last : Run}
    (ends : (runsFrom stop pairs).getLast? = some last) : last.stop = stopFrom stop pairs := by
  induction pairs generalizing stop with
  | nil => cases ends
  | cons pair rest ih =>
    cases rest with
    | nil =>
      cases ends
      rfl
    | cons next more =>
      rw [runsFrom, runsFrom, List.getLast?_cons_cons, ← runsFrom] at ends
      exact ih ends

/-- Runs in order reach no row that one of them does not reach. -/
theorem stopFrom_ofRuns_le {stop rows : Nat} {runs : List Run} (start : stop ≤ rows)
    (order : runs.Pairwise fun earlier later => earlier.stop ≤ later.start)
    (behind : ∀ run ∈ runs, stop ≤ run.start) (inside : ∀ run ∈ runs, run.stop ≤ rows) :
    stopFrom stop (ofRuns stop runs #[]).toList ≤ rows := by
  induction runs generalizing stop with
  | nil => exact start
  | cons run rest ih =>
    obtain ⟨first, others⟩ := List.pairwise_cons.mp order
    have reached := behind run (by simp)
    have here : stop + (run.start - stop) + run.length = run.stop := by
      rw [Run.stop]
      omega
    rw [toList_ofRuns_cons, stopFrom_append, stopFrom_split, here]
    exact ih (inside run (by simp)) others first
      fun other member => inside other (List.mem_cons_of_mem _ member)

end GapRun

namespace RunStreams

variable {bitmap : Bitmap} {columns rows : Nat} {runs : RunStreams}

theorem stopFrom_ofRows_le {list : List Nat} (sorted : list.Pairwise (· < ·))
    (inside : ∀ row ∈ list, row < rows) : GapRun.stopFrom 0 (GapRun.ofRows list) ≤ rows := by
  refine GapRun.stopFrom_ofRuns_le (Nat.zero_le _) (Run.pairwise_ofRows sorted)
    (fun _ _ => Nat.zero_le _) fun run member => ?_
  have positive := (Run.built_ofRows sorted).nonempty run (List.mem_reverse.mp member)
  have last : run.stop - 1 ∈ run.rows := by
    refine Run.mem_rows.mpr ?_
    rw [Run.stop]
    omega
  have listed : run.stop - 1 ∈ list := by
    rw [← Run.flatMap_ofRows sorted]
    exact List.mem_flatMap.mpr ⟨run, member, last⟩
  have := inside _ listed
  omega

theorem check_ofBitmap (valid : bitmap.WellFormed columns rows)
    (h : ofBitmap bitmap = .ok runs) : RunStreams.check runs bitmap.tuples rows = .ok () := by
  obtain ⟨streams, few⟩ := ofBitmap_eq_ok h
  have even : ∀ words ∈ bitmap.lists.map fun list => GapRun.words (GapRun.ofRows list),
      ∀ first, (decide (first ≤ first + words.length) &&
        (first + words.length - first) % 2 == 0) = true := by
    intro words member first
    obtain ⟨list, _, rfl⟩ := List.mem_map.mp member
    simp [GapRun.length_words]
  have fit := Streams.pointersFit_ofLists few
    (fun first last => decide (first ≤ last) && (last - first) % 2 == 0) even
  rw [List.length_map, ← streams] at fit
  rw [check, Bitmap.tuples, fit]
  refine checkFrom_eq_ok_iff.mpr fun i _ bound => ?_
  have inside : i < bitmap.lists.length := by omega
  refine ⟨_, runsOf_ofBitmap h inside, fun last ends => ?_⟩
  rw [GapRun.getLast?_runsFrom ends]
  have member := List.getElem_mem inside
  exact stopFrom_ofRows_le (valid.increasing _ member) (valid.inside _ member)

/-- Streams of runs are made unless they are too long. -/
theorem exists_ofBitmap_iff : (∃ runs, ofBitmap bitmap = .ok runs) ↔
    2 * total (bitmap.lists.map pairCount) ≤ maxIndex := by
  have words := length_flatten_words bitmap
  rw [Segments.length_flatten] at words
  unfold ofBitmap
  simp only [words]
  split
  next long => exact ⟨fun ⟨_, made⟩ => (nomatch made), fun few => absurd few (Nat.not_le.mpr long)⟩
  next few => exact ⟨fun _ => Nat.le_of_not_lt few, fun _ => ⟨_, rfl⟩⟩

end RunStreams

end PackedMatrix
