import PackedMatrix.Proofs.MaximalRuns
import PackedMatrix.Proofs.Steps

namespace PackedMatrix

/-- A number of a range of this size, or the fault that it does not fit. -/
def Fault.within (size number : Nat) : Except Fault Nat :=
  if number < size then .ok number else .error .overflow

theorem Fault.within_eq {size number : Nat} (fits : number < size) :
    Fault.within size number = .ok number := if_pos fits

namespace GapRun

/-- Measures the run that starts at `start` and has this length so far: its whole length, and the
rows behind it. -/
def measure (start length : Nat) : List Nat → Except Fault (Nat × List Nat)
  | [] => .ok (length, [])
  | row :: rest => do
    let next ← Fault.within UInt32.size (start + length)
    if row = next then
      let longer ← Fault.within UInt32.size (length + 1)
      measure start longer rest
    else pure (length, row :: rest)

/-- Emits pairs until the rest of a gap fits a word, and gives that rest. -/
def emitGap (gap : Nat) (pairs : Array GapRun) : Nat × Array GapRun :=
  if maxWord < gap then emitGap (gap - maxWord) (pairs.push ⟨maxWord, 0⟩) else (gap, pairs)
termination_by gap
decreasing_by
  have : 0 < maxWord := by decide
  omega

/-- Emits the rows of a run that the pair of its gap has no room for. -/
def emitRest (rest : Nat) (pairs : Array GapRun) : Except Fault (Array GapRun) :=
  if rest = 0 then .ok pairs
  else
    match Fault.within UInt16.size (min rest maxWord) with
    | .error fault => .error fault
    | .ok length => emitRest (rest - min rest maxWord) (pairs.push ⟨0, length⟩)
termination_by rest
decreasing_by
  have : 0 < maxWord := by decide
  omega

/-- Emits the pairs of one run behind row `stop`. -/
def emitRun (stop start length : Nat) (pairs : Array GapRun) : Except Fault (Array GapRun) := do
  let whole ← if stop ≤ start then .ok (start - stop) else .error .overflow
  let (rest, pairs) := emitGap whole pairs
  let gap ← Fault.within UInt16.size rest
  let first ← Fault.within UInt16.size (min length maxWord)
  emitRest (length - min length maxWord) (pairs.push ⟨gap, first⟩)

theorem length_of_measure {start length : Nat} {rows : List Nat} {measured : Nat × List Nat}
    (h : measure start length rows = .ok measured) : measured.2.length ≤ rows.length := by
  induction rows generalizing length with
  | nil => cases h; exact Nat.le_refl _
  | cons row rest ih =>
    obtain ⟨next, _, h⟩ := bind_eq_ok h
    split at h
    next =>
      obtain ⟨longer, _, h⟩ := bind_eq_ok h
      exact Nat.le_succ_of_le (ih h)
    next => cases h; exact Nat.le_refl _

/-- Emits the pairs of increasing rows that lie behind row `stop`. -/
def emit (stop : Nat) (rows : List Nat) (pairs : Array GapRun) : Except Fault (Array GapRun) :=
  match rows with
  | [] => .ok pairs
  | start :: rest =>
    match _measured : measure start 1 rest with
    | .error fault => .error fault
    | .ok (length, behind) => do
      let pairs ← emitRun stop start length pairs
      let stop ← Fault.within UInt32.size (start + length)
      emit stop behind pairs
termination_by rows.length
decreasing_by exact Nat.lt_succ_of_le (length_of_measure _measured)

/-- A run is measured up to the first row that is left out. -/
theorem measure_range' {start length more : Nat} {behind : List Nat}
    (fits : start + length + more < UInt32.size)
    (apart : ∀ row ∈ behind, start + length + more < row) :
    measure start length (List.range' (start + length) more ++ behind) =
      .ok (length + more, behind) := by
  induction more generalizing length with
  | zero =>
    cases behind with
    | nil => rfl
    | cons row rest =>
      have left := apart row (by simp)
      have next : Fault.within UInt32.size (start + length) = .ok (start + length) :=
        Fault.within_eq (by omega)
      simp only [List.range'_zero, List.nil_append, measure, next, bind, Except.bind]
      rw [if_neg (by omega)]
      rfl
  | succ more ih =>
    have next : Fault.within UInt32.size (start + length) = .ok (start + length) :=
      Fault.within_eq (by omega)
    have longer : Fault.within UInt32.size (length + 1) = .ok (length + 1) :=
      Fault.within_eq (by omega)
    have later := @ih (length + 1) (by omega) fun row member => by
      have := apart row member
      omega
    rw [← Nat.add_assoc] at later
    simp only [List.range'_succ, List.cons_append, measure, next, longer, bind, Except.bind,
      ↓reduceIte, later]
    rw [Nat.add_assoc, Nat.add_comm 1]

theorem emitGap_eq (gap : Nat) (pairs : Array GapRun) :
    emitGap gap pairs = (gap - (gap - 1) / maxWord * maxWord,
      pairs ++ (List.replicate ((gap - 1) / maxWord) ⟨maxWord, 0⟩).toArray) := by
  fun_induction emitGap gap pairs with
  | case1 gap pairs large ih =>
    have step : (gap - 1) / maxWord = (gap - maxWord - 1) / maxWord + 1 := by
      rw [maxWord] at large ⊢
      omega
    rw [ih, step, List.replicate_succ, Nat.succ_mul]
    refine Prod.ext ?_ ?_
    · simp only
      omega
    · apply Array.ext'
      simp
  | case2 gap pairs small =>
    have none_ : (gap - 1) / maxWord = 0 := by
      rw [maxWord] at small ⊢
      omega
    simp [none_]

/-- The rest of a run takes whole words, and a last pair for what is left. -/
def restPairs (rest : Nat) : List GapRun :=
  List.replicate (rest / maxWord) ⟨0, maxWord⟩ ++
    if rest % maxWord = 0 then [] else [⟨0, rest % maxWord⟩]

theorem emitRest_eq (rest : Nat) (pairs : Array GapRun) :
    emitRest rest pairs = .ok (pairs ++ (restPairs rest).toArray) := by
  fun_induction emitRest rest pairs with
  | case1 pairs => simp [restPairs]
  | case2 rest pairs left fault wide =>
    have narrow : min rest maxWord < UInt16.size :=
      Nat.lt_succ_of_le (Nat.min_le_right rest maxWord)
    rw [Fault.within_eq narrow] at wide
    cases wide
  | case3 rest pairs left length fits ih =>
    have narrow : min rest maxWord < UInt16.size :=
      Nat.lt_succ_of_le (Nat.min_le_right rest maxWord)
    rw [Fault.within_eq narrow] at fits
    obtain rfl := Except.ok.inj fits
    have step : restPairs rest = ⟨0, min rest maxWord⟩ :: restPairs (rest - min rest maxWord) := by
      rcases Nat.lt_or_ge rest maxWord with short | long
      · simp [restPairs, Nat.min_eq_left (Nat.le_of_lt short), Nat.div_eq_of_lt short,
          Nat.mod_eq_of_lt short, left]
      · have whole : rest / maxWord = (rest - maxWord) / maxWord + 1 := by
          rw [maxWord] at long ⊢
          omega
        rw [restPairs, restPairs, Nat.min_eq_right long, ← Nat.mod_eq_sub_mod long, whole,
          List.replicate_succ, List.cons_append]
    rw [ih, step]
    congr 1
    apply Array.ext'
    simp

theorem split_eq (gap length : Nat) : split gap length =
    List.replicate ((gap - 1) / maxWord) ⟨maxWord, 0⟩ ++
      ⟨gap - (gap - 1) / maxWord * maxWord, min length maxWord⟩ ::
        restPairs (length - min length maxWord) := by
  simp [split, restPairs]

theorem emitRun_eq {stop start length : Nat} (behind : stop ≤ start) (pairs : Array GapRun) :
    emitRun stop start length pairs = .ok (pairs ++ (split (start - stop) length).toArray) := by
  have remainder := Nat.div_add_mod' (start - stop - 1) maxWord
  have small : (start - stop - 1) % maxWord < maxWord := Nat.mod_lt _ (by decide)
  have size : UInt16.size = maxWord + 1 := rfl
  have gap : Fault.within UInt16.size
      (start - stop - (start - stop - 1) / maxWord * maxWord) =
        .ok (start - stop - (start - stop - 1) / maxWord * maxWord) :=
    Fault.within_eq (by omega)
  have first : Fault.within UInt16.size (min length maxWord) = .ok (min length maxWord) :=
    Fault.within_eq (Nat.lt_succ_of_le (Nat.min_le_right length maxWord))
  simp only [emitRun, if_pos behind, emitGap_eq, gap, first, bind, Except.bind, emitRest_eq,
    split_eq]
  congr 1
  apply Array.ext'
  simp

theorem emit_cons {stop start length : Nat} {rest behind : List Nat}
    (measured : measure start 1 rest = .ok (length, behind)) (pairs : Array GapRun) :
    emit stop (start :: rest) pairs = (do
      let pairs ← emitRun stop start length pairs
      let stop ← Fault.within UInt32.size (start + length)
      emit stop behind pairs) := by
  rw [emit]
  split
  next fault failed =>
    rw [measured] at failed
    cases failed
  next found =>
    rw [measured] at found
    cases found
    rfl

/-- Rows in maximal runs below the last 32-bit number pass every check, and the pairs of their runs
are emitted. -/
theorem emit_eq {stop : Nat} {rows : List Nat} {runs : List Run} (maximal : Run.Maximal runs rows)
    (behind : ∀ run ∈ runs, stop ≤ run.start) (small : ∀ row ∈ rows, row < maxIndex)
    (pairs : Array GapRun) : emit stop rows pairs = .ok (ofRuns stop runs pairs) := by
  induction runs generalizing stop rows pairs with
  | nil =>
    obtain rfl : [] = rows := maximal.rows
    rw [emit, ofRuns]
  | cons run rest ih =>
    obtain ⟨others, rfl, later, positive, apart⟩ := maximal.cons
    obtain ⟨start, length⟩ := run
    have reached := behind _ (List.mem_cons_self ..)
    have last : start + (length - 1) < maxIndex := by
      refine small _ (List.mem_append_left _ (Run.mem_rows.mpr ?_))
      simp only [Run.stop] at positive ⊢
      omega
    have fits : start + length < UInt32.size := by
      simp only [maxIndex] at last
      rw [UInt32.size]
      omega
    have measured : measure start 1 (List.range' (start + 1) (length - 1) ++ others) =
        .ok (length, others) := by
      have whole : 1 + (length - 1) = length := by
        simp only at positive
        omega
      have found := @measure_range' start 1 (length - 1) others (by omega) fun row member => by
        have := apart row member
        simp only [Run.stop] at this
        omega
      rwa [whole] at found
    have ends := Fault.within_eq fits
    rw [Run.rows_eq_cons positive, List.cons_append, emit_cons measured, emitRun_eq reached]
    simp only [bind, Except.bind, ends]
    rw [ofRuns]
    refine ih later (fun other member => ?_) (fun row member => small row ?_) _
    · exact Nat.le_of_lt ((List.pairwise_cons.mp maximal.apart).1 other member)
    · exact List.mem_append_right _ member

theorem emit_ofRows {rows : List Nat} (sorted : rows.Pairwise (· < ·))
    (small : ∀ row ∈ rows, row < maxIndex) : emit 0 rows #[] = .ok (ofRows rows).toArray := by
  rw [emit_eq (Run.maximal_ofRows sorted) (fun _ _ => Nat.zero_le _) small, ofRows]

end GapRun

end PackedMatrix
