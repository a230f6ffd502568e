import Mathlib.Data.List.GetD
import Mathlib.Data.List.Induction
import PackedMatrix.Proofs.Increasing
import PackedMatrix.Proofs.Segments
import PackedMatrix.RowIndex

namespace PackedMatrix

namespace RowIndex

/-- The anchors of a list are for its entries at multiples of the interval. -/
theorem lt_anchorsFor_iff {i length : Nat} :
    i < anchorsFor length ↔ i * anchorInterval < length := by
  simp only [anchorsFor, anchorInterval]
  omega

theorem anchorsFor_succ (length : Nat) : anchorsFor (length + 1) =
    anchorsFor length + if length % anchorInterval = 0 then 1 else 0 := by
  rw [anchorsFor, anchorsFor]
  split
  next due =>
    rw [anchorInterval] at due
    omega
  next between =>
    rw [anchorInterval] at between
    omega

theorem gapWords_small {maxGap gap : Nat} (small : gap ≤ maxGap) : gapWords maxGap gap = [gap] := by
  have none : (gap - 1) / maxGap = 0 := by
    rcases Nat.eq_zero_or_pos gap with rfl | positive
    · simp
    · exact Nat.div_eq_of_lt (by omega)
  simp [gapWords, none]

theorem gapWords_large {maxGap gap : Nat} (some_ : 0 < maxGap) (large : maxGap < gap) :
    gapWords maxGap gap = 0 :: gapWords maxGap (gap - maxGap) := by
  have markers : (gap - 1) / maxGap = (gap - maxGap - 1) / maxGap + 1 := by
    rw [← Nat.add_div_right _ some_]
    congr 1
    omega
  have rest : gap - ((gap - maxGap - 1) / maxGap + 1) * maxGap =
      gap - maxGap - (gap - maxGap - 1) / maxGap * maxGap := by
    rw [Nat.succ_mul]
    omega
  simp only [gapWords, markers, rest, List.replicate_succ, List.cons_append]

theorem length_gapWords (maxGap gap : Nat) :
    (gapWords maxGap gap).length = 1 + (gap - 1) / maxGap := by
  simp only [gapWords, List.length_append, List.length_replicate, List.length_singleton]
  omega

theorem length_gapWords_pos (maxGap gap : Nat) : 0 < (gapWords maxGap gap).length := by
  rw [length_gapWords, Nat.add_comm]
  exact Nat.succ_pos _

/-- A gap takes no more words than it skips rows. -/
theorem length_gapWords_le (maxGap : Nat) {gap : Nat} (positive : 0 < gap) :
    (gapWords maxGap gap).length ≤ gap := by
  have := Nat.div_le_self (gap - 1) maxGap
  rw [length_gapWords]
  omega

theorem le_of_mem_gapWords {maxGap gap word : Nat} (some_ : 0 < maxGap)
    (member : word ∈ gapWords maxGap gap) : word ≤ maxGap := by
  induction gap using Nat.strongRecOn with
  | ind gap ih =>
    rcases Nat.lt_or_ge maxGap gap with large | small
    · rw [gapWords_large some_ large, List.mem_cons] at member
      rcases member with rfl | member
      · exact Nat.zero_le _
      · exact ih (gap - maxGap) (by omega) member
    · rw [gapWords_small small, List.mem_singleton] at member
      omega

/-- A word of zero moves the step on by the longest gap. -/
theorem step_of_zero {gaps : GapStream} {row position : Nat}
    (word : gaps.word? position = some 0) (small : row + gaps.maxGap ≤ maxIndex) :
    gaps.step ⟨row, position⟩ = gaps.step ⟨row + gaps.maxGap, position + 1⟩ := by
  rw [GapStream.step]
  split
  next absent => simp [word] at absent
  next found present =>
    obtain rfl : found = 0 := by simpa [word] using present.symm
    simp only [↓reduceIte, if_neg (Nat.not_lt.mpr small)]

/-- Any other word ends the step. -/
theorem step_of_pos {gaps : GapStream} {row position gap : Nat}
    (word : gaps.word? position = some gap) (positive : 0 < gap) (small : row + gap ≤ maxIndex) :
    gaps.step ⟨row, position⟩ = .ok ⟨row + gap, position + 1⟩ := by
  rw [GapStream.step]
  split
  next absent => simp [word] at absent
  next found present =>
    obtain rfl : found = gap := by simpa [word] using present.symm
    simp only [if_neg (Nat.ne_of_gt positive), if_neg (Nat.not_lt.mpr small)]

theorem step_gapWords {gaps : GapStream} {words : List Nat} (row position : Nat) {gap : Nat}
    (reads : ∀ i, gaps.word? i = words[i]?) (some_ : 0 < gaps.maxGap) (positive : 0 < gap)
    (here : (words.drop position).take (gapWords gaps.maxGap gap).length =
      gapWords gaps.maxGap gap)
    (small : row + gap ≤ maxIndex) : gaps.step ⟨row, position⟩ =
      .ok ⟨row + gap, position + (gapWords gaps.maxGap gap).length⟩ := by
  induction gap using Nat.strongRecOn generalizing row position with
  | ind gap ih =>
    have first : (gapWords gaps.maxGap gap)[0]? = words[position]? := by
      rw [← here, List.getElem?_take_of_lt (length_gapWords_pos _ _), List.getElem?_drop,
        Nat.add_zero]
    rcases Nat.lt_or_ge gaps.maxGap gap with large | fits
    · have split := gapWords_large some_ large
      rw [split] at here first
      have word : gaps.word? position = some 0 := by
        rw [reads, ← first]
        rfl
      have rest : (words.drop (position + 1)).take
          (gapWords gaps.maxGap (gap - gaps.maxGap)).length =
          gapWords gaps.maxGap (gap - gaps.maxGap) := by
        obtain ⟨inside, _⟩ := List.getElem?_eq_some_iff.mp first.symm
        rw [List.drop_eq_getElem_cons inside, List.length_cons, List.take_succ_cons] at here
        exact (List.cons.inj here).2
      rw [step_of_zero word (by omega), ih (gap - gaps.maxGap) (by omega) (row + gaps.maxGap)
        (position + 1) (by omega) rest (by omega), split, List.length_cons]
      congr 2 <;> omega
    · have split := gapWords_small fits
      rw [split] at first ⊢
      have word : gaps.word? position = some gap := by
        rw [reads, ← first]
        rfl
      exact step_of_pos word positive small

/-- The words between each two neighbouring rows. -/
def gapLists (maxGap : Nat) (rows : List Nat) : List (List Nat) :=
  (rows.zip (rows.drop 1)).map fun pair => gapWords maxGap (pair.2 - pair.1)

/-- The stream position behind an entry, where its gap to the next one starts. -/
def place (maxGap : Nat) (rows : List Nat) (entry : Nat) : Nat :=
  Segments.offset (gapLists maxGap rows) entry

/-- The anchors of every 64th entry. -/
def anchorsOf (maxGap : Nat) (rows : List Nat) : Array Anchor :=
  ((List.range (anchorsFor rows.length)).map fun i =>
    (⟨UInt32.ofNat (rows.getD (i * anchorInterval) 0),
      UInt32.ofNat (place maxGap rows (i * anchorInterval))⟩ : Anchor)).toArray

theorem length_gapLists (maxGap : Nat) (rows : List Nat) :
    (gapLists maxGap rows).length = rows.length - 1 := by
  simp only [gapLists, List.length_map, List.length_zip, List.length_drop]
  omega

theorem getElem_gapLists {maxGap : Nat} {rows : List Nat} {i : Nat} (inside : i + 1 < rows.length)
    (listed : i < (gapLists maxGap rows).length) :
    (gapLists maxGap rows)[i] = gapWords maxGap (rows[i + 1] - rows[i]) := by
  simp [gapLists]

theorem streamLength_eq (maxGap : Nat) (rows : List Nat) :
    streamLength maxGap rows = (gapLists maxGap rows).flatten.length := by
  rw [Segments.length_flatten, streamLength, gapLists,
    List.map_map]
  congr 1
  apply List.map_congr_left
  intro pair _
  exact (length_gapWords _ _).symm

theorem gapLists_append (maxGap : Nat) (rows : List Nat) (row : Nat) :
    gapLists maxGap (rows ++ [row]) =
      gapLists maxGap rows ++ (rows.getLast?.map fun last =>
          gapWords maxGap (row - last)).toList := by
  induction rows with
  | nil => rfl
  | cons first rest ih =>
    cases rest with
    | nil => rfl
    | cons second rest =>
      have step : ∀ rows : List Nat, gapLists maxGap (first :: second :: rows) =
          gapWords maxGap (second - first) :: gapLists maxGap (second :: rows) := fun _ => rfl
      rw [List.cons_append, List.cons_append, step, step, ← List.cons_append, ih,
        List.getLast?_cons_cons, List.cons_append]

theorem place_append {maxGap : Nat} {rows : List Nat} (row : Nat) {entry : Nat}
    (inside : entry < rows.length) :
    place maxGap (rows ++ [row]) entry = place maxGap rows entry := by
  rw [place, gapLists_append, Segments.offset_append_left _ _
    (by rw [length_gapLists]; omega), place]

theorem getD_anchorsOf {maxGap : Nat} {rows : List Nat} {i : Nat}
    (inside : i * anchorInterval < rows.length) :
    (anchorsOf maxGap rows).getD i default =
      ⟨UInt32.ofNat rows[i * anchorInterval],
        UInt32.ofNat (place maxGap rows (i * anchorInterval))⟩ := by
  simp [anchorsOf, Array.getD_eq_getD_getElem?, List.getElem?_range (lt_anchorsFor_iff.mpr inside),
    List.getD_eq_getElem?_getD, inside]

theorem anchorsOf_append (maxGap : Nat) (rows : List Nat) (row : Nat) :
    anchorsOf maxGap (rows ++ [row]) =
      if rows.length % anchorInterval = 0 then
        (anchorsOf maxGap rows).push
          ⟨UInt32.ofNat row, UInt32.ofNat (gapLists maxGap (rows ++ [row])).flatten.length⟩
      else anchorsOf maxGap rows := by
  have kept : (List.range (anchorsFor rows.length)).map (fun i =>
      (⟨UInt32.ofNat ((rows ++ [row]).getD (i * anchorInterval) 0),
        UInt32.ofNat (place maxGap (rows ++ [row]) (i * anchorInterval))⟩ : Anchor)) =
      (List.range (anchorsFor rows.length)).map fun i =>
        (⟨UInt32.ofNat (rows.getD (i * anchorInterval) 0),
          UInt32.ofNat (place maxGap rows (i * anchorInterval))⟩ : Anchor) := by
    apply List.map_congr_left
    intro i member
    have inside := lt_anchorsFor_iff.mp (List.mem_range.mp member)
    rw [place_append row inside, List.getD_append _ _ _ _ inside]
  unfold anchorsOf
  rw [List.length_append, List.length_singleton, anchorsFor_succ]
  by_cases due : rows.length % anchorInterval = 0
  · have last : anchorsFor rows.length * anchorInterval = rows.length := by
      simp only [anchorsFor, anchorInterval] at due ⊢
      omega
    have behind : place maxGap (rows ++ [row]) rows.length =
        (gapLists maxGap (rows ++ [row])).flatten.length := by
      rw [← Segments.offset_length, length_gapLists, List.length_append, List.length_singleton,
        Nat.add_sub_cancel, place]
    have here : (rows ++ [row]).getD rows.length 0 = row := by simp
    rw [if_pos due, if_pos due, List.range_succ, List.map_append, kept, List.map_singleton, last,
      behind, here, List.push_toArray]
  · rw [if_neg due, if_neg due, Nat.add_zero, kept]

/-- After some rows the encoder holds their words and anchors. -/
theorem foldl_add (maxGap : Nat) (rows : List Nat) :
    rows.foldl (Encoder.add maxGap) .start =
      ⟨(gapLists maxGap rows).flatten.toArray, anchorsOf maxGap rows, rows.getLast?,
        rows.length⟩ := by
  induction rows using List.reverseRecOn with
  | nil => rfl
  | append_singleton rows row ih =>
    rw [List.foldl_append, ih, List.foldl_cons, List.foldl_nil, anchorsOf_append]
    cases last : rows.getLast? with
    | none =>
      have words : (gapLists maxGap (rows ++ [row])).flatten = (gapLists maxGap rows).flatten := by
        rw [gapLists_append, last]
        simp
      simp [Encoder.add, words]
    | some before =>
      have words : (gapLists maxGap (rows ++ [row])).flatten =
          (gapLists maxGap rows).flatten ++ gapWords maxGap (row - before) := by
        rw [gapLists_append, last]
        simp
      simp [Encoder.add, words]

/-- The index lists these rows: a step from behind an entry leads behind the next one, and anchors
know where their entries lie. -/
structure Lists (index : RowIndex) (rows : List Nat) (place : Nat → Nat) : Prop where
  length : index.length = rows.length
  anchorCount : index.anchors.size = anchorsFor rows.length
  anchor : ∀ i (inside : i * anchorInterval < rows.length),
    (index.anchors.getD i default).row.toNat = rows[i * anchorInterval] ∧
      (index.anchors.getD i default).position.toNat = place (i * anchorInterval)
  start : place 0 = 0
  step : ∀ i (inside : i + 1 < rows.length),
    index.gaps.step ⟨rows[i], place i⟩ = .ok ⟨rows[i + 1], place (i + 1)⟩

namespace Lists

variable {index : RowIndex} {rows : List Nat} {place : Nat → Nat}

theorem exists_anchor (lists : index.Lists rows place) {i : Nat}
    (inside : i * anchorInterval < rows.length) : ∃ anchor, index.anchors[i]? = some anchor ∧
      anchor.row.toNat = rows[i * anchorInterval] ∧
      anchor.position.toNat = place (i * anchorInterval) := by
  have listed : i < index.anchors.size := lists.anchorCount ▸ lt_anchorsFor_iff.mpr inside
  have found := Array.getElem?_eq_getElem listed
  have anchor := lists.anchor i inside
  rw [Array.getD_eq_getD_getElem?, found, Option.getD_some] at anchor
  exact ⟨_, found, anchor⟩

theorem decode_eq (lists : index.Lists rows place) {count i : Nat} (inside : i < rows.length)
    (rest : count = rows.length - i) (done : Array Nat) :
    decode index.gaps count ⟨rows[i], place i⟩ done = .ok (done ++ (rows.drop i).toArray) := by
  induction count generalizing i done with
  | zero => omega
  | succ count ih =>
    rw [List.drop_eq_getElem_cons inside]
    cases count with
    | zero =>
      have last : rows.drop (i + 1) = [] := List.drop_eq_nil_of_le (by omega)
      simp [decode, last]
    | succ count =>
      have next := lists.step i (by omega)
      simp only [decode, next]
      rw [ih (by omega) (by omega)]
      simp

theorem rows_eq (lists : index.Lists rows place) : index.rows = .ok rows := by
  unfold RowIndex.rows
  cases rows with
  | nil =>
    have nothing : index.anchors.size = 0 := lists.anchorCount
    have absent : index.anchors[0]? = none := Array.getElem?_eq_none (Nat.le_of_eq nothing)
    rw [absent]
  | cons first rest =>
    obtain ⟨anchor, found, here, _⟩ := lists.exists_anchor (i := 0) (by simp)
    have all := lists.decode_eq (show 0 < (first :: rest).length by simp) lists.length #[]
    rw [lists.start] at all
    simp only [Nat.zero_mul] at here
    simp only [found, here, all]
    simp [Except.map]

/-- The walk from an entry whose row does not lie behind the target finds the target's place. -/
theorem walk_eq (lists : index.Lists rows place) (sorted : rows.Pairwise (· < ·)) {target i : Nat}
    (inside : i < rows.length) (before : ∀ row ∈ rows.take i, row < target) :
    index.walk target i ⟨rows[i], place i⟩ =
      .ok (if target ∈ rows then some (rows.idxOf target) else none) := by
  induction rest : rows.length - i generalizing i with
  | zero => omega
  | succ count ih =>
    have count := lists.length
    rw [walk]
    simp only
    by_cases here : rows[i] = target
    · have member : target ∈ rows := here ▸ List.getElem_mem inside
      have place := Increasing.idxOf_getElem sorted inside
      rw [here] at place
      rw [if_pos here, if_pos member, place]
    · rw [if_neg here]
      by_cases past : rows[i] > target ∨ i + 1 ≥ index.length
      · have stranger : target ∉ rows := by
          intro member
          obtain ⟨j, bound, found⟩ := List.mem_iff_getElem.mp member
          rcases Nat.lt_trichotomy j i with less | rfl | more
          · have := before target (List.mem_take_iff_getElem.mpr ⟨j, by omega, found⟩)
            omega
          · exact here found
          · have := Increasing.getElem_lt sorted more bound
            omega
        rw [if_pos past, if_neg stranger]
      · have next := lists.step i (by omega)
        rw [if_neg past]
        simp only [next]
        refine ih (by omega) ?_ (by omega)
        intro row member
        rw [List.take_add_one, List.getElem?_eq_getElem inside] at member
        rcases List.mem_append.mp member with old | new
        · exact before row old
        · have : row = rows[i] := by simpa using new
          omega

/-- The anchors at or below a row are those of the entries at or below it, which come first. -/
theorem partitionPoint_anchors (lists : index.Lists rows place) (sorted : rows.Pairwise (· < ·))
    (target : Nat) :
    Search.partitionPoint (fun i => (index.anchors.getD i default).row.toNat ≤ target)
      index.anchors.size = anchorsFor (rows.countP (· ≤ target)) := by
  have most : rows.countP (· ≤ target) ≤ rows.length := List.countP_le_length
  have order := sorted.imp Nat.le_of_lt
  refine Search.partitionPoint_eq ?_ ?_ ?_
  · rw [lists.anchorCount]
    exact Nat.div_le_div_right (Nat.add_le_add_right most 63)
  · intro i before
    have reached := lt_anchorsFor_iff.mp before
    have inside := Nat.lt_of_lt_of_le reached most
    rw [(lists.anchor i inside).1, decide_eq_true_eq, Increasing.getElem_le_iff order]
    exact reached
  · intro i behind bound
    have inside := lt_anchorsFor_iff.mp (lists.anchorCount ▸ bound)
    rw [(lists.anchor i inside).1, decide_eq_false_iff_not, Increasing.getElem_le_iff order,
      ← lt_anchorsFor_iff]
    exact Nat.not_lt.mpr behind

/-- A lookup gives the place of a row of the list, and nothing for other rows. -/
theorem ordinal?_eq (lists : index.Lists rows place) (sorted : rows.Pairwise (· < ·))
    (target : Nat) :
    index.ordinal? target = .ok (if target ∈ rows then some (rows.idxOf target) else none) := by
  have upTo : ∀ i (inside : i < rows.length),
      rows[i] ≤ target ↔ i < rows.countP (· ≤ target) :=
    fun _ inside => Increasing.getElem_le_iff (sorted.imp Nat.le_of_lt) target inside
  unfold ordinal?
  simp only [lists.partitionPoint_anchors sorted]
  by_cases none : anchorsFor (rows.countP (· ≤ target)) = 0
  · have stranger : target ∉ rows := by
      intro member
      obtain ⟨i, bound, found⟩ := List.mem_iff_getElem.mp member
      have early := (upTo i bound).mp (Nat.le_of_eq found)
      rw [anchorsFor] at none
      omega
    rw [if_pos none, if_neg stranger]
  · have early : (anchorsFor (rows.countP (· ≤ target)) - 1) * anchorInterval <
        rows.countP (· ≤ target) := lt_anchorsFor_iff.mp (by omega)
    have inside := Nat.lt_of_lt_of_le early List.countP_le_length
    obtain ⟨row, position⟩ := lists.anchor _ inside
    rw [if_neg none, row, position]
    refine lists.walk_eq sorted inside ?_
    intro row member
    obtain ⟨j, bound, found⟩ := List.mem_take_iff_getElem.mp member
    have reached := (upTo _ inside).mpr early
    have less := Increasing.getElem_lt sorted (show j < _ by omega) inside
    omega

end Lists

theorem place_succ (maxGap : Nat) {rows : List Nat} {i : Nat} (inside : i + 1 < rows.length) :
    place maxGap rows (i + 1) =
      place maxGap rows i + (gapWords maxGap (rows[i + 1] - rows[i])).length := by
  have listed : i < (gapLists maxGap rows).length := by
    rw [length_gapLists]
    omega
  rw [place, Segments.offset_succ listed, getElem_gapLists inside, place]

/-- A gap takes no more words than it skips rows, so positions do not exceed rows. -/
theorem place_le_getElem (maxGap : Nat) {rows : List Nat} (sorted : rows.Pairwise (· < ·)) {i : Nat}
    (inside : i < rows.length) : place maxGap rows i ≤ rows[i] := by
  induction i with
  | zero => simp [place]
  | succ i ih =>
    have before := ih (by omega)
    have order : rows[i] < rows[i + 1] := Increasing.getElem_lt sorted (Nat.lt_succ_self i) inside
    have words := length_gapWords_le maxGap (show 0 < rows[i + 1] - rows[i] by omega)
    rw [place_succ maxGap inside]
    omega

/-- Words lead from entry to entry, and anchors and positions fit 32 bits. -/
theorem lists_of_words {gaps : GapStream} {rows : List Nat}
    (reads : ∀ i, gaps.word? i = (gapLists gaps.maxGap rows).flatten[i]?) (some_ : 0 < gaps.maxGap)
    (sorted : rows.Pairwise (· < ·)) (small : ∀ row ∈ rows, row ≤ maxIndex) :
    (⟨gaps, anchorsOf gaps.maxGap rows, rows.length⟩ : RowIndex).Lists rows
      (RowIndex.place gaps.maxGap rows) := by
  have fits : ∀ value, value ≤ maxIndex → (UInt32.ofNat value).toNat = value := by
    intro value bound
    rw [maxIndex] at bound
    exact UInt32.toNat_ofNat_of_lt' (by rw [UInt32.size]; omega)
  constructor
  case length => rfl
  case anchorCount => simp [anchorsOf]
  case start => simp [RowIndex.place]
  case anchor =>
    intro i inside
    have low := small _ (List.getElem_mem inside)
    have place := place_le_getElem gaps.maxGap sorted inside
    rw [getD_anchorsOf inside]
    exact ⟨fits _ low, fits _ (by omega)⟩
  case step =>
    intro i inside
    have order : rows[i] < rows[i + 1] := Increasing.getElem_lt sorted (Nat.lt_succ_self i) inside
    have low := small _ (List.getElem_mem inside)
    have here := Segments.take_drop_flatten
      (show i < (gapLists gaps.maxGap rows).length by rw [length_gapLists]; omega)
    rw [getElem_gapLists inside] at here
    have made := step_gapWords rows[i] (RowIndex.place gaps.maxGap rows i) reads some_
      (show 0 < rows[i + 1] - rows[i] by omega) here (by omega)
    rw [made, place_succ gaps.maxGap inside]
    congr 2
    omega

theorem le_of_mem_gapLists {maxGap : Nat} {rows : List Nat} (some_ : 0 < maxGap) {word : Nat}
    (member : word ∈ (gapLists maxGap rows).flatten) : word ≤ maxGap := by
  obtain ⟨words, listed, inside⟩ := List.mem_flatten.mp member
  obtain ⟨pair, _, rfl⟩ := List.mem_map.mp listed
  exact le_of_mem_gapWords some_ inside

/-- Words that a type can hold are read back from their stored forms. -/
theorem getElem?_map_words {W : Type} {toWord : Nat → W} {ofWord : W → Nat} {words : List Nat}
    (held : ∀ word ∈ words, ofWord (toWord word) = word) (i : Nat) :
    (words.toArray.map toWord)[i]?.map ofWord = words[i]? := by
  simp only [Array.getElem?_map, List.getElem?_toArray, Option.map_map]
  cases found : words[i]? with
  | none => rfl
  | some word => exact congrArg some (held word (List.mem_of_getElem? found))

theorem word?_byte {words : List Nat} (small : ∀ word ∈ words, word ≤ 255) (i : Nat) :
    (GapStream.byte (words.toArray.map UInt8.ofNat)).word? i = words[i]? := by
  refine getElem?_map_words (fun word member => ?_) i
  have low := small word member
  exact UInt8.toNat_ofNat_of_lt' (by rw [UInt8.size]; omega)

theorem word?_half {words : List Nat} (small : ∀ word ∈ words, word ≤ 65535) (i : Nat) :
    (GapStream.half (words.toArray.map UInt16.ofNat)).word? i = words[i]? := by
  refine getElem?_map_words (fun word member => ?_) i
  have low := small word member
  exact UInt16.toNat_ofNat_of_lt' (by rw [UInt16.size]; omega)

/-- The encoding of a list in bytes. -/
def inBytes (rows : List Nat) : RowIndex :=
  ⟨.byte ((gapLists 255 rows).flatten.toArray.map UInt8.ofNat), anchorsOf 255 rows, rows.length⟩

/-- The encoding of a list in words of 16 bits. -/
def inHalves (rows : List Nat) : RowIndex :=
  ⟨.half ((gapLists 65535 rows).flatten.toArray.map UInt16.ofNat), anchorsOf 65535 rows,
    rows.length⟩

section Made

variable {rows : List Nat}

theorem size_anchorsOf (maxGap : Nat) : (anchorsOf maxGap rows).size = anchorsFor rows.length := by
  simp [anchorsOf]

theorem size_inBytes : (inBytes rows).size =
    headerSize + streamLength 255 rows + anchorsFor rows.length * anchorSize := by
  simp only [size, inBytes, size_anchorsOf, GapStream.size, GapStream.length, GapStream.bits,
    Array.size_map, List.size_toArray, streamLength_eq, Nat.reduceDiv, Nat.mul_one]

theorem size_inHalves : (inHalves rows).size =
    headerSize + streamLength 65535 rows * 2 + anchorsFor rows.length * anchorSize := by
  simp only [size, inHalves, size_anchorsOf, GapStream.size, GapStream.length, GapStream.bits,
    Array.size_map, List.size_toArray, streamLength_eq, Nat.reduceDiv]

/-- The index that is made is the smaller of the two encodings. -/
theorem ofRows_eq_smaller (rows : List Nat) : ofRows rows =
    if (inBytes rows).size ≤ (inHalves rows).size then inBytes rows else inHalves rows := by
  have same : (inBytes rows).size ≤ (inHalves rows).size ↔
      streamLength 255 rows ≤ streamLength 65535 rows * 2 := by
    rw [size_inBytes, size_inHalves]
    omega
  simp only [same, ofRows, foldl_add]
  rfl

theorem sizeOfRows_eq_min (rows : List Nat) :
    sizeOfRows rows = min (inBytes rows).size (inHalves rows).size := by
  rw [size_inBytes, size_inHalves, sizeOfRows]
  omega

theorem size_ofRows (rows : List Nat) : (ofRows rows).size = sizeOfRows rows := by
  rw [ofRows_eq_smaller, sizeOfRows_eq_min]
  split <;> omega

/-- The index of a list has its gaps, in words of one of the two widths, and its anchors. -/
theorem ofRows_eq (rows : List Nat) : ∃ gaps : GapStream,
    ofRows rows = ⟨gaps, anchorsOf gaps.maxGap rows, rows.length⟩ ∧ 0 < gaps.maxGap ∧
      gaps.length = (gapLists gaps.maxGap rows).flatten.length ∧
      ∀ i, gaps.word? i = (gapLists gaps.maxGap rows).flatten[i]? := by
  rw [ofRows_eq_smaller]
  split
  next =>
    refine ⟨_, rfl, Nat.zero_lt_succ 254, ?_,
      word?_byte fun _ => le_of_mem_gapLists (Nat.zero_lt_succ 254)⟩
    rw [GapStream.length, Array.size_map, List.size_toArray, GapStream.maxGap]
  next =>
    refine ⟨_, rfl, Nat.zero_lt_succ 65534, ?_,
      word?_half fun _ => le_of_mem_gapLists (Nat.zero_lt_succ 65534)⟩
    rw [GapStream.length, Array.size_map, List.size_toArray, GapStream.maxGap]

/-- The index that is made for an increasing list of stored rows lists them. -/
theorem lists_ofRows (sorted : rows.Pairwise (· < ·)) (small : ∀ row ∈ rows, row ≤ maxIndex) :
    ∃ place, (ofRows rows).Lists rows place := by
  obtain ⟨gaps, made, some_, _, reads⟩ := ofRows_eq rows
  rw [made]
  exact ⟨_, lists_of_words reads some_ sorted small⟩

end Made

end RowIndex

end PackedMatrix
