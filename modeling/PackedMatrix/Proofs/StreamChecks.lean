import PackedMatrix.Proofs.OffsetBlocks
import PackedMatrix.Proofs.RunReads
import PackedMatrix.Proofs.Steps

namespace PackedMatrix

namespace Streams

variable {streams : Streams} {tuples : Nat} {test : Nat → Nat → Bool}

/-- Pointers that fit lie behind each other, and the last one is the number of words. -/
theorem pointers_of_fit (fit : streams.pointersFit tuples test = true) :
    streams.ptr.size = tuples + 1 ∧
      (∀ i (inside : i + 1 < streams.ptr.size),
        test streams.ptr[i].toNat streams.ptr[i + 1].toNat = true) ∧
      ∀ inside : tuples < streams.ptr.size, streams.ptr[tuples].toNat = streams.data.size := by
  simp only [pointersFit, Bool.and_eq_true, beq_iff_eq, List.length_map, Array.length_toList,
    List.all_eq_true] at fit
  obtain ⟨⟨size, tests⟩, last⟩ := fit
  refine ⟨size, ?_, ?_⟩
  · intro i inside
    refine tests (streams.ptr[i].toNat, streams.ptr[i + 1].toNat) ?_
    refine List.mem_iff_getElem.mpr ⟨i, ?_, ?_⟩
    · simp only [List.length_zip, List.length_drop, List.length_map, Array.length_toList]
      omega
    · simp
  · intro inside
    have place : (streams.ptr.toList.map UInt32.toNat).length - 1 = tuples := by
      rw [List.length_map, Array.length_toList]
      omega
    rw [List.getLast?_eq_getElem?, place] at last
    simpa [inside] using last

variable (fit : streams.pointersFit tuples test = true)
  (ordered : ∀ first last, test first last = true → first ≤ last)

include fit ordered

/-- From each pointer on, the pointers do not fall, and the last one ends the data. -/
theorem ptr_le_size {i : Nat} (bound : i < streams.ptr.size) :
    streams.ptr[i].toNat ≤ streams.data.size := by
  obtain ⟨size, tests, last⟩ := pointers_of_fit fit
  induction left : tuples - i generalizing i with
  | zero =>
    obtain rfl : i = tuples := by omega
    exact Nat.le_of_eq (last bound)
  | succ left ih =>
    have step := ordered _ _ (tests i (by omega))
    exact Nat.le_trans step (ih (by omega) (by omega))

theorem exists_stream {i : Nat} (inside : i < tuples) :
    ∃ words, streams.stream i = .ok words ∧ words.length ≤ maxIndex ∧
      ∀ word ∈ words, word < UInt16.size := by
  obtain ⟨size, tests, _⟩ := pointers_of_fit fit
  have first : streams.ptr[i]? = some streams.ptr[i] := Array.getElem?_eq_getElem (by omega)
  have next : streams.ptr[i + 1]? = some streams.ptr[i + 1] := Array.getElem?_eq_getElem (by omega)
  have order := ordered _ _ (tests i (by omega))
  have ends := ptr_le_size fit ordered (show i + 1 < streams.ptr.size by omega)
  have small := streams.ptr[i + 1].toNat_lt
  refine ⟨(streams.data.extract streams.ptr[i].toNat streams.ptr[i + 1].toNat).toList.map
    UInt16.toNat, ?_, ?_, ?_⟩
  · rw [stream, first, next]
    simp only
    rw [if_pos ⟨order, ends⟩]
  · rw [List.length_map, Array.length_toList, Array.size_extract, maxIndex]
    omega
  · intro word member
    obtain ⟨stored, _, rfl⟩ := List.mem_map.mp member
    exact stored.toNat_lt

end Streams

namespace OffsetStreams

variable {offsets : OffsetStreams} {tuples rows : Nat}

theorem checkFrom_eq_ok_iff {count tuple : Nat} :
    offsets.checkFrom rows count tuple = .ok () ↔ ∀ i, tuple ≤ i → i < tuple + count →
      ∃ found, offsets.rowsOf i = .ok found ∧ ∀ row ∈ found, row < rows := by
  refine count_eq_ok_iff (fun _ => rfl) fun count tuple => ?_
  rw [checkFrom]
  cases offsets.rowsOf tuple with
  | error fault => simp
  | ok found =>
    have none_iff : found.find? (· ≥ rows) = none ↔ ∀ row ∈ found, row < rows := by simp
    simp only [Except.ok.injEq, exists_eq_left', ← none_iff]
    cases found.find? (· ≥ rows) <;> simp

/-- The stream of a tuple consists of these blocks, and they name rows inside. -/
structure Cut (offsets : OffsetStreams) (rows tuple : Nat) (blocks : List (List Nat)) : Prop where
  stream : offsets.streams.stream tuple = .ok (blockStream blocks)
  few : (blockStream blocks).length ≤ maxIndex
  small : ∀ word ∈ blockStream blocks, word < UInt16.size
  inside : ∀ row ∈ rowsFrom offsets.blockSize 0 blocks, row < rows

theorem rowsOf_eq {tuple : Nat} {blocks : List (List Nat)}
    (read : offsets.streams.stream tuple = .ok (blockStream blocks)) :
    offsets.rowsOf tuple = .ok (rowsFrom offsets.blockSize 0 blocks) := by
  rw [rowsOf, read]
  simp only [bind, Except.bind, decode_blockStream, pure, Except.pure,
    Array.toList_append, List.nil_append]

theorem exists_cut (h : offsets.check tuples rows = .ok ()) {tuple : Nat}
    (inside : tuple < tuples) : ∃ blocks, offsets.Cut rows tuple blocks := by
  unfold check at h
  split at h
  next => cases h
  next fit =>
    obtain ⟨words, read, few, small⟩ := Streams.exists_stream (by simpa using fit)
      (fun _ _ order => of_decide_eq_true order) inside
    obtain ⟨found, decoded, bound⟩ :=
      checkFrom_eq_ok_iff.mp h tuple (Nat.zero_le _) (by omega)
    have taken := decoded
    rw [rowsOf, read] at taken
    obtain ⟨_, same, taken⟩ := bind_eq_ok taken
    cases same
    obtain ⟨_, run, _⟩ := bind_eq_ok taken
    obtain ⟨blocks, rfl⟩ := exists_blocks run
    rw [rowsOf_eq read] at decoded
    cases decoded
    exact ⟨blocks, read, few, small, bound⟩

/-- With blocks of the sizes that streams are made with, no row number of a block wraps around. -/
theorem Cut.add_lt {tuple : Nat} {blocks : List (List Nat)} (cut : offsets.Cut rows tuple blocks)
    (size : offsets.blockSize ≤ Settings.maxOffsetBlockSize) {block place : Nat}
    (inside : block < blocks.length) (word : place < UInt16.size) :
    block * offsets.blockSize + place < UInt64.size := by
  have count := length_le_blockStream blocks
  have few := cut.few
  have start : block * offsets.blockSize ≤ maxIndex * Settings.maxOffsetBlockSize :=
    Nat.mul_le_mul (by omega) size
  rw [maxIndex, Settings.maxOffsetBlockSize] at start
  rw [UInt16.size] at word
  rw [UInt64.size]
  omega

end OffsetStreams

namespace GapRun

/-- Words decode to the runs of their pairs; a last word without a partner adds none. -/
theorem exists_pairs (stop : Nat) (words : List Nat) (runs : Array Run) :
    ∃ pairs, (decode stop words runs).toList = runs.toList ++ runsFrom stop pairs := by
  fun_induction decode stop words runs with
  | case1 stop runs gap length rest ih =>
    obtain ⟨pairs, decoded⟩ := ih
    refine ⟨⟨gap, length⟩ :: pairs, ?_⟩
    rw [decoded, Array.toList_push, runsFrom, List.append_assoc, List.singleton_append]
  | case2 stop words runs single => exact ⟨[], by simp [runsFrom]⟩

theorem stop_le_getLast {stop : Nat} {pairs : List GapRun} {run last : Run}
    (member : run ∈ runsFrom stop pairs) (ends : (runsFrom stop pairs).getLast? = some last) :
    run.stop ≤ last.stop := by
  induction pairs generalizing stop with
  | nil => simp [runsFrom] at member
  | cons pair rest ih =>
    rw [runsFrom] at member ends
    cases more : runsFrom (stop + pair.gap + pair.length) rest with
    | nil =>
      rw [more] at member ends
      obtain rfl : run = _ := by simpa using member
      obtain rfl : _ = last := by simpa using ends
      exact Nat.le_refl _
    | cons next others =>
      have ends' : (runsFrom (stop + pair.gap + pair.length) rest).getLast? = some last := by
        rw [more, List.getLast?_cons_cons] at ends
        rwa [more]
      rcases List.mem_cons.mp member with rfl | later
      · have start := le_start_of_mem_runsFrom (List.mem_of_getLast? ends')
        simp only [Run.stop]
        omega
      · exact ih later ends'

end GapRun

namespace RunStreams

variable {runs : RunStreams} {tuples rows : Nat}

theorem checkFrom_eq_ok_iff {count tuple : Nat} :
    RunStreams.checkFrom runs rows count tuple = .ok () ↔ ∀ i, tuple ≤ i → i < tuple + count →
      ∃ found, RunStreams.runsOf runs i = .ok found ∧
        ∀ last, found.getLast? = some last → last.stop ≤ rows := by
  refine count_eq_ok_iff (fun _ => rfl) fun count tuple => ?_
  rw [checkFrom]
  cases RunStreams.runsOf runs tuple with
  | error fault => simp
  | ok found =>
    simp only [guard_eq_ok_iff, Except.ok.injEq, exists_eq_left']
    cases found.getLast? <;> simp

/-- The stream of a tuple denotes these runs, which are in order and end inside. -/
structure Spans (runs : RunStreams) (rows tuple : Nat) (found : List Run) : Prop where
  runsOf : RunStreams.runsOf runs tuple = .ok found
  ordered : found.Pairwise fun earlier later => earlier.start ≤ later.start
  inside : ∀ run ∈ found, run.stop ≤ rows

theorem exists_spans (h : RunStreams.check runs tuples rows = .ok ()) {tuple : Nat}
    (inside : tuple < tuples) : ∃ found, Spans runs rows tuple found := by
  unfold check at h
  split at h
  next => cases h
  next fit =>
    obtain ⟨found, decoded, ends⟩ := checkFrom_eq_ok_iff.mp h tuple (Nat.zero_le _) (by omega)
    have taken := decoded
    rw [runsOf] at taken
    obtain ⟨words, _, taken⟩ := bind_eq_ok taken
    obtain ⟨pairs, denoted⟩ := GapRun.exists_pairs 0 words #[]
    have named : found = GapRun.runsFrom 0 pairs := by
      cases taken
      simpa using denoted
    subst named
    refine ⟨_, decoded, GapRun.pairwise_runsFrom 0 pairs, ?_⟩
    intro run member
    obtain ⟨last, last_⟩ : ∃ last, (GapRun.runsFrom 0 pairs).getLast? = some last :=
      ⟨_, List.getLast?_eq_some_getLast (List.ne_nil_of_mem member)⟩
    exact Nat.le_trans (GapRun.stop_le_getLast member last_) (ends last last_)

end RunStreams

end PackedMatrix
