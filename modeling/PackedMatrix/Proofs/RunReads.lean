import Mathlib.Data.List.Induction
import PackedMatrix.Group.RunStreams
import PackedMatrix.Proofs.OffsetReads

namespace PackedMatrix

namespace Run

theorem mem_rows {run : Run} {row : Nat} : row ∈ run.rows ↔ run.start ≤ row ∧ row < run.stop := by
  rw [rows, List.mem_range'_1, stop]

/-- Runs, the last one first, that cover these rows: none is empty, and each starts behind those
before it. -/
structure Built (runs : List Run) (rows : List Nat) : Prop where
  rows : runs.reverse.flatMap Run.rows = rows
  nonempty : ∀ run ∈ runs, 0 < run.length
  order : runs.Pairwise fun later earlier => earlier.stop ≤ later.start

/-- The last row of each run is known, so all runs end at or below a row behind those known. -/
theorem Built.stop_le {runs : List Run} {rows : List Nat} (built : Built runs rows) {row : Nat}
    (behind : ∀ known ∈ rows, known < row) {run : Run} (member : run ∈ runs) : run.stop ≤ row := by
  have positive := built.nonempty run member
  have last : run.start + (run.length - 1) ∈ rows := by
    rw [← built.rows]
    refine List.mem_flatMap.mpr ⟨run, List.mem_reverse.mpr member, mem_rows.mpr ?_⟩
    rw [stop]
    omega
  have := behind _ last
  rw [stop]
  omega

theorem Built.extend {runs : List Run} {rows : List Nat} (built : Built runs rows) {row : Nat}
    (behind : ∀ known ∈ rows, known < row) : Built (extend runs row) (rows ++ [row]) := by
  have single : Run.rows ⟨row, 1⟩ = [row] := rfl
  cases runs with
  | nil =>
    have none : rows = [] := by rw [← built.rows]; rfl
    exact ⟨by rw [none]; rfl, by simp [Run.extend], List.pairwise_singleton _ _⟩
  | cons last rest =>
    have order := List.pairwise_cons.mp built.order
    by_cases joined : row = last.stop
    · have longer : Run.rows ⟨last.start, last.length + 1⟩ = last.rows ++ [row] := by
        simp only [Run.rows, joined, stop]
        rw [List.range'_concat, Nat.one_mul]
      rw [Run.extend, if_pos joined]
      refine ⟨?_, ?_, ?_⟩
      · rw [← built.rows]
        simp only [List.reverse_cons, List.flatMap_append, List.flatMap_singleton, longer,
          List.append_assoc]
      · intro run member
        rcases List.mem_cons.mp member with rfl | old
        · exact Nat.succ_pos _
        · exact built.nonempty run (List.mem_cons_of_mem _ old)
      · exact List.pairwise_cons.mpr ⟨order.1, order.2⟩
    · rw [Run.extend, if_neg joined]
      refine ⟨?_, ?_, ?_⟩
      · rw [← built.rows, List.reverse_cons, List.flatMap_append, List.flatMap_singleton, single]
      · intro run member
        rcases List.mem_cons.mp member with rfl | old
        · exact Nat.one_pos
        · exact built.nonempty run old
      · exact List.pairwise_cons.mpr ⟨fun run member => built.stop_le behind member, built.order⟩

/-- The runs of an increasing list cover its rows, in order. -/
theorem built_ofRows {rows : List Nat} (sorted : rows.Pairwise (· < ·)) :
    Built (rows.foldl extend []) rows := by
  induction rows using List.reverseRecOn with
  | nil => exact ⟨rfl, by simp, .nil⟩
  | append_singleton rows row ih =>
    obtain ⟨front, _, apart⟩ := List.pairwise_append.mp sorted
    rw [List.foldl_append, List.foldl_cons, List.foldl_nil]
    exact (ih front).extend fun known member => apart known member row (by simp)

theorem flatMap_ofRows {rows : List Nat} (sorted : rows.Pairwise (· < ·)) :
    (ofRows rows).flatMap Run.rows = rows := (built_ofRows sorted).rows

theorem pairwise_ofRows {rows : List Nat} (sorted : rows.Pairwise (· < ·)) :
    (ofRows rows).Pairwise fun earlier later => earlier.stop ≤ later.start :=
  List.pairwise_reverse.mpr (built_ofRows sorted).order

end Run

namespace GapRun

/-- The rows that pairs denote behind row `stop`. -/
def rowsFrom (stop : Nat) : List GapRun → List Nat
  | [] => []
  | pair :: rest =>
    List.range' (stop + pair.gap) pair.length ++ rowsFrom (stop + pair.gap + pair.length) rest

theorem rowsFrom_gaps (stop count : Nat) (rest : List GapRun) :
    rowsFrom stop (List.replicate count ⟨maxWord, 0⟩ ++ rest) =
      rowsFrom (stop + count * maxWord) rest := by
  induction count generalizing stop with
  | zero => simp
  | succ count ih =>
    rw [List.replicate_succ, List.cons_append, rowsFrom, List.range'_zero, List.nil_append,
      Nat.add_zero, ih, Nat.succ_mul]
    dsimp only
    congr 1
    omega

theorem rowsFrom_parts (stop count : Nat) (rest : List GapRun) :
    rowsFrom stop (List.replicate count ⟨0, maxWord⟩ ++ rest) =
      List.range' stop (count * maxWord) ++ rowsFrom (stop + count * maxWord) rest := by
  induction count generalizing stop with
  | zero => simp
  | succ count ih =>
    have split : (count + 1) * maxWord = maxWord + count * maxWord := by
      rw [Nat.succ_mul, Nat.add_comm]
    rw [List.replicate_succ, List.cons_append, rowsFrom, ih, Nat.add_zero, split,
      ← List.range'_append_1, List.append_assoc, Nat.add_assoc]

/-- The pairs of a run denote its rows, and lead behind it. -/
theorem rowsFrom_split (stop gap length : Nat) (rest : List GapRun) :
    rowsFrom stop (split gap length ++ rest) =
      List.range' (stop + gap) length ++ rowsFrom (stop + gap + length) rest := by
  have skips := Nat.div_mul_le_self (gap - 1) maxWord
  have reach : stop + (gap - 1) / maxWord * maxWord + (gap - (gap - 1) / maxWord * maxWord) =
      stop + gap := by omega
  have whole := Nat.div_add_mod' (length - min length maxWord) maxWord
  have first : min length maxWord ≤ length := Nat.min_le_left _ _
  simp only [split, List.append_assoc, List.cons_append]
  rw [rowsFrom_gaps, rowsFrom, rowsFrom_parts]
  simp only [reach]
  split
  next none =>
    rw [none, Nat.add_zero] at whole
    rw [List.nil_append, whole, ← List.append_assoc, List.range'_append_1]
    congr 2 <;> omega
  next =>
    rw [List.cons_append, List.nil_append, rowsFrom, Nat.add_zero, ← List.append_assoc,
      ← List.append_assoc, List.range'_append_1, Nat.add_assoc (stop + gap), List.range'_append_1]
    dsimp only
    congr 2 <;> omega

theorem toList_ofRuns (stop : Nat) (runs : List Run) (pairs : Array GapRun) :
    (ofRuns stop runs pairs).toList = pairs.toList ++ (ofRuns stop runs #[]).toList := by
  induction runs generalizing stop pairs with
  | nil => simp [ofRuns]
  | cons run rest ih =>
    rw [ofRuns, ofRuns, ih, ih run.stop (#[] ++ _)]
    simp

theorem toList_ofRuns_cons (stop : Nat) (run : Run) (rest : List Run) :
    (ofRuns stop (run :: rest) #[]).toList =
      split (run.start - stop) run.length ++ (ofRuns run.stop rest #[]).toList := by
  rw [ofRuns, toList_ofRuns]
  simp

/-- The pairs of runs in order denote the rows of the runs. -/
theorem rowsFrom_ofRuns {stop : Nat} {runs : List Run}
    (order : runs.Pairwise fun earlier later => earlier.stop ≤ later.start)
    (behind : ∀ run ∈ runs, stop ≤ run.start) :
    rowsFrom stop (ofRuns stop runs #[]).toList = runs.flatMap Run.rows := by
  induction runs generalizing stop with
  | nil => rfl
  | cons run rest ih =>
    obtain ⟨first, others⟩ := List.pairwise_cons.mp order
    have start := behind run (by simp)
    have reach : stop + (run.start - stop) = run.start := by omega
    rw [toList_ofRuns_cons, List.flatMap_cons, rowsFrom_split, reach,
      show run.start + run.length = run.stop from rfl, ih others first]
    rfl

theorem rowsFrom_ofRows {rows : List Nat} (sorted : rows.Pairwise (· < ·)) :
    rowsFrom 0 (ofRows rows) = rows := by
  rw [ofRows, rowsFrom_ofRuns (Run.pairwise_ofRows sorted) fun _ _ => Nat.zero_le _,
    Run.flatMap_ofRows sorted]

/-- Every gap and every length fits a word. -/
theorem le_maxWord_of_mem_split {gap length : Nat} {pair : GapRun}
    (member : pair ∈ split gap length) :
    pair.gap ≤ maxWord ∧ pair.length ≤ maxWord := by
  have remainder := Nat.div_add_mod' (gap - 1) maxWord
  have small : (gap - 1) % maxWord < maxWord := Nat.mod_lt _ (by decide)
  have rest : (length - min length maxWord) % maxWord < maxWord := Nat.mod_lt _ (by decide)
  have positive : 0 < maxWord := by decide
  simp only [split, List.mem_append, List.mem_cons, List.mem_replicate] at member
  rcases member with (⟨_, rfl⟩ | rfl | ⟨_, rfl⟩) | last
  · exact ⟨Nat.le_refl _, Nat.zero_le _⟩
  · exact ⟨by simp only; omega, Nat.min_le_right _ _⟩
  · exact ⟨Nat.zero_le _, Nat.le_refl _⟩
  · split at last
    next => simp at last
    next =>
      rw [List.mem_singleton.mp last]
      exact ⟨Nat.zero_le _, Nat.le_of_lt rest⟩

theorem le_maxWord_of_mem_ofRuns {stop : Nat} {runs : List Run} {pair : GapRun}
    (member : pair ∈ (ofRuns stop runs #[]).toList) :
    pair.gap ≤ maxWord ∧ pair.length ≤ maxWord := by
  induction runs generalizing stop with
  | nil => simp [ofRuns] at member
  | cons run rest ih =>
    rw [toList_ofRuns_cons, List.mem_append] at member
    rcases member with here | later
    · exact le_maxWord_of_mem_split here
    · exact ih later

theorem le_of_mem_words {rows : List Nat} {word : Nat} (member : word ∈ words (ofRows rows)) :
    word ≤ 65535 := by
  obtain ⟨pair, listed, here⟩ := List.mem_flatMap.mp member
  obtain ⟨gap, length⟩ := le_maxWord_of_mem_ofRuns listed
  simp only [List.mem_cons, List.not_mem_nil, or_false] at here
  rcases here with rfl | rfl
  · exact gap
  · exact length

theorem length_words (pairs : List GapRun) : (words pairs).length = 2 * pairs.length := by
  induction pairs with
  | nil => rfl
  | cons pair rest ih =>
    rw [words] at ih
    simp only [words, List.flatMap_cons, List.length_append, List.length_cons, List.length_nil, ih]
    omega

/-- The runs that pairs denote behind row `stop`. -/
def runsFrom (stop : Nat) : List GapRun → List Run
  | [] => []
  | pair :: rest => ⟨stop + pair.gap, pair.length⟩ :: runsFrom (stop + pair.gap + pair.length) rest

theorem decode_words (stop : Nat) (pairs : List GapRun) (runs : Array Run) :
    (decode stop (words pairs) runs).toList = runs.toList ++ runsFrom stop pairs := by
  induction pairs generalizing stop runs with
  | nil => simp [words, decode, runsFrom]
  | cons pair rest ih =>
    have split : words (pair :: rest) = pair.gap :: pair.length :: words rest := rfl
    rw [split, decode, ih, runsFrom]
    simp

theorem flatMap_runsFrom (stop : Nat) (pairs : List GapRun) :
    (runsFrom stop pairs).flatMap Run.rows = rowsFrom stop pairs := by
  induction pairs generalizing stop with
  | nil => rfl
  | cons pair rest ih =>
    rw [runsFrom, List.flatMap_cons, ih, rowsFrom, Run.rows]

theorem le_start_of_mem_runsFrom {stop : Nat} {pairs : List GapRun} {run : Run}
    (member : run ∈ runsFrom stop pairs) : stop ≤ run.start := by
  induction pairs generalizing stop with
  | nil => simp [runsFrom] at member
  | cons pair rest ih =>
    rcases List.mem_cons.mp member with rfl | later
    · exact Nat.le_add_right _ _
    · have := ih later
      omega

/-- Runs come out in the order of their starts. -/
theorem pairwise_runsFrom (stop : Nat) (pairs : List GapRun) :
    (runsFrom stop pairs).Pairwise fun earlier later => earlier.start ≤ later.start := by
  induction pairs generalizing stop with
  | nil => exact .nil
  | cons pair rest ih =>
    refine List.pairwise_cons.mpr ⟨?_, ih _⟩
    intro later member
    have := le_start_of_mem_runsFrom member
    simp only
    omega

end GapRun

namespace RunStreams

/-- The search that stops at the first run behind a row misses none that covers it. -/
theorem covers_eq {runs : List Run}
    (order : runs.Pairwise fun earlier later => earlier.start ≤ later.start) (row : Nat) :
    covers runs row = (runs.flatMap Run.rows).contains row := by
  induction runs with
  | nil => rfl
  | cons run rest ih =>
    obtain ⟨first, others⟩ := List.pairwise_cons.mp order
    have later := ih others
    rw [covers] at later
    rw [Bool.eq_iff_iff, List.contains_iff_mem, List.mem_flatMap] at later ⊢
    by_cases started : run.start ≤ row
    · rw [covers, List.takeWhile_cons_of_pos (by simpa using started), List.any_cons,
        Bool.or_eq_true, later]
      constructor
      · rintro (here | ⟨other, member, inside⟩)
        · exact ⟨run, by simp, Run.mem_rows.mpr ⟨started, by simpa using here⟩⟩
        · exact ⟨other, List.mem_cons_of_mem _ member, inside⟩
      · rintro ⟨other, member, inside⟩
        rcases List.mem_cons.mp member with rfl | old
        · exact .inl (by simpa using (Run.mem_rows.mp inside).2)
        · exact .inr ⟨other, old, inside⟩
    · rw [covers, List.takeWhile_cons_of_neg (by simpa using started)]
      constructor
      · intro found
        simp at found
      · rintro ⟨other, member, inside⟩
        have reached := (Run.mem_rows.mp inside).1
        rcases List.mem_cons.mp member with rfl | old
        · exact absurd reached started
        · have := first other old
          omega

variable {bitmap : Bitmap} {columns rows : Nat} {runs : RunStreams}

theorem length_flatten_words (bitmap : Bitmap) :
    (bitmap.lists.map fun list => GapRun.words (GapRun.ofRows list)).flatten.length =
      2 * total (bitmap.lists.map pairCount) := by
  rw [Segments.length_flatten, List.map_map]
  generalize bitmap.lists = lists
  induction lists with
  | nil => rfl
  | cons list rest ih =>
    rw [List.map_cons, List.map_cons, total_cons, total_cons, ih, Function.comp_apply,
      GapRun.length_words, pairCount, Nat.mul_add]

theorem ofBitmap_eq_ok (h : ofBitmap bitmap = .ok runs) :
    runs = Streams.ofLists (bitmap.lists.map fun list => GapRun.words (GapRun.ofRows list)) ∧
      (bitmap.lists.map fun list => GapRun.words (GapRun.ofRows list)).flatten.length ≤
        maxIndex := by
  simp only [ofBitmap, guard_eq_ok_iff] at h
  obtain ⟨few, h⟩ := h
  cases h
  refine ⟨rfl, ?_⟩
  rw [Segments.length_flatten]
  exact Nat.le_of_not_lt few

theorem runsOf_ofBitmap (h : ofBitmap bitmap = .ok runs) {i : Nat}
    (inside : i < bitmap.lists.length) :
    RunStreams.runsOf runs i = .ok (GapRun.runsFrom 0 (GapRun.ofRows bitmap.lists[i])) := by
  obtain ⟨rfl, few⟩ := ofBitmap_eq_ok h
  have words : ∀ words ∈ bitmap.lists.map (fun list => GapRun.words (GapRun.ofRows list)),
      ∀ word ∈ words, word ≤ 65535 := by
    intro words listed word member
    obtain ⟨list, _, rfl⟩ := List.mem_map.mp listed
    exact GapRun.le_of_mem_words member
  have read := Streams.stream_ofLists words few (i := i) (by rwa [List.length_map])
  rw [List.getElem_map] at read
  rw [runsOf, read]
  simp only [bind, Except.bind, pure, Except.pure, GapRun.decode_words, List.nil_append]

theorem flatMap_runsOf (valid : bitmap.WellFormed columns rows) {i : Nat}
    (inside : i < bitmap.lists.length) :
    (GapRun.runsFrom 0 (GapRun.ofRows bitmap.lists[i])).flatMap Run.rows = bitmap.lists[i] := by
  rw [GapRun.flatMap_runsFrom, GapRun.rowsFrom_ofRows
    (valid.increasing _ (List.getElem_mem inside))]

theorem findTuple_eq {runs : RunStreams} {row tuples : Nat} {covers? : Nat → Bool}
    (reads : ∀ i, i < tuples → ∃ found,
      RunStreams.runsOf runs i = .ok found ∧ covers found row = covers? i) :
    RunStreams.findTuple runs row tuples 0 = .ok ((List.range' 0 tuples).find? covers?) := by
  refine count_find_eq (fun _ => rfl) (fun count tuple inside => ?_) (Nat.le_of_eq (Nat.zero_add _))
  obtain ⟨found, decoded, covered⟩ := reads tuple inside
  rw [findTuple, decoded]
  simp only [covered]

theorem tupleOf_ofBitmap (valid : bitmap.WellFormed columns rows) (h : ofBitmap bitmap = .ok runs)
    (row : Nat) : RunStreams.tupleOf runs bitmap.tuples row = .ok (bitmap.listOf? row) := by
  rw [tupleOf, Bitmap.listOf?_eq_find?]
  refine findTuple_eq fun i inside => ⟨_, runsOf_ofBitmap h inside, ?_⟩
  rw [covers_eq (GapRun.pairwise_runsFrom _ _), flatMap_runsOf valid inside,
    Bitmap.list_eq_getElem inside]

end RunStreams

end PackedMatrix
