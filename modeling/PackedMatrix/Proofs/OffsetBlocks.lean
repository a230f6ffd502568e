import PackedMatrix.Group.OffsetStreams
import PackedMatrix.Proofs.Increasing

namespace PackedMatrix

namespace Search

/-- The search ends at the last entry that does not lie above the target, if there is any. -/
theorem narrow_of_le {list : List Nat} (order : list.Pairwise (· ≤ ·)) {target i : Nat}
    (inside : i < list.length) (low : list[i] ≤ target) :
    narrow (fun i => compare (list.toArray.getD i 0) target) 0 list.length =
      list.countP (· ≤ target) - 1 := by
  have upTo := fun j (bound : j < list.length) => Increasing.getElem_le_iff order target bound
  have early := (upTo i inside).mp low
  have most : list.countP (· ≤ target) ≤ list.length := List.countP_le_length
  refine narrow_eq (Nat.zero_le _) (by omega) ?_ ?_
  · intro j _ before above
    rw [getD_toArray (by omega)] at above
    have := (upTo j (by omega)).mpr (by omega)
    have := Nat.compare_eq_gt.mp above
    omega
  · intro j behind bound
    rw [getD_toArray (by omega)]
    have := mt (upTo j (by omega)).mp (by omega)
    exact Nat.compare_eq_gt.mpr (by omega)

theorem isSome_find? {list : List Nat} (order : list.Pairwise (· ≤ ·)) (target : Nat) :
    (find? (fun i => compare (list.toArray.getD i 0) target) list.length).isSome =
      list.contains target := by
  by_cases member : target ∈ list
  · obtain ⟨i, inside, here⟩ := List.mem_iff_getElem.mp member
    have ends := narrow_of_le order inside (Nat.le_of_eq here)
    have early := (Increasing.getElem_le_iff order target inside).mp (Nat.le_of_eq here)
    have most : list.countP (· ≤ target) ≤ list.length := List.countP_le_length
    have last : list[list.countP (· ≤ target) - 1] = target := by
      have low := (Increasing.getElem_le_iff order target (by omega)).mpr
        (show list.countP (· ≤ target) - 1 < _ by omega)
      have high := List.pairwise_iff_getElem.mp order i (list.countP (· ≤ target) - 1) inside
        (by omega)
      rcases Nat.eq_or_lt_of_le (show i ≤ list.countP (· ≤ target) - 1 by omega) with same | less
      · simp only [← same, here]
      · have := high less
        omega
    have found : compare (list.toArray.getD (list.countP (· ≤ target) - 1) 0) target = .eq := by
      rw [getD_toArray (by omega), last]
      exact Nat.compare_eq_eq.mpr rfl
    rw [find?, if_neg (by omega)]
    simp only [ends, found, ↓reduceIte, Option.isSome_some, List.contains_iff_mem.mpr member]
  · have none : find? (fun i => compare (list.toArray.getD i 0) target) list.length = none := by
      apply find?_eq_none
      intro i inside equal
      rw [getD_toArray inside] at equal
      exact member (Nat.compare_eq_eq.mp equal ▸ List.getElem_mem inside)
    rw [none, Option.isSome_none, Bool.eq_false_iff.mpr (mt List.contains_iff_mem.mp member)]

end Search

namespace OffsetStreams

/-- The words of blocks: for each the number of its places, and the places. -/
def blockStream (blocks : List (List Nat)) : List Nat :=
  blocks.flatMap fun places => places.length :: places

/-- The rows that blocks name, the first of which starts at row `base`. -/
def rowsFrom (blockSize base : Nat) : List (List Nat) → List Nat
  | [] => []
  | places :: rest =>
    places.map (fun place => (base + place) % UInt64.size) ++
      rowsFrom blockSize ((base + blockSize) % UInt64.size) rest

theorem blockStream_cons (places : List Nat) (blocks : List (List Nat)) :
    blockStream (places :: blocks) = places.length :: (places ++ blockStream blocks) := by
  simp [blockStream]

theorem length_le_blockStream (blocks : List (List Nat)) :
    blocks.length ≤ (blockStream blocks).length := by
  induction blocks with
  | nil => exact Nat.le_refl _
  | cons places rest ih =>
    rw [blockStream_cons, List.length_cons, List.length_cons, List.length_append]
    omega

theorem decode_blockStream (blockSize base : Nat) (blocks : List (List Nat)) (rows : Array Nat) :
    decode blockSize base (blockStream blocks) rows =
      .ok (rows ++ (rowsFrom blockSize base blocks).toArray) := by
  induction blocks generalizing base rows with
  | nil => simp [blockStream, decode, rowsFrom]
  | cons places rest ih =>
    rw [blockStream_cons, decode, List.take_left, List.drop_left]
    simp only [Nat.lt_irrefl, ↓reduceIte]
    rw [ih, List.foldl_push_eq_append, rowsFrom]
    simp

theorem exists_blocks {blockSize base : Nat} {words : List Nat} {rows decoded : Array Nat}
    (h : decode blockSize base words rows = .ok decoded) :
    ∃ blocks, words = blockStream blocks := by
  fun_induction decode blockSize base words rows with
  | case1 base rows => exact ⟨[], rfl⟩
  | case2 base rows count rest places short => cases h
  | case3 base rows count rest places whole ih =>
    obtain ⟨blocks, later⟩ := ih h
    have full : places.length = count := by
      have upTo : places.length ≤ count := List.length_take_le _ _
      omega
    refine ⟨places :: blocks, ?_⟩
    rw [blockStream_cons, full, ← later, List.take_append_drop]

theorem skipBlocks_blockStream (count : Nat) (blocks : List (List Nat)) :
    skipBlocks count (blockStream blocks) = blockStream (blocks.drop count) := by
  induction count generalizing blocks with
  | zero => simp [skipBlocks]
  | succ count ih =>
    cases blocks with
    | nil => simp [skipBlocks, blockStream]
    | cons places rest =>
      rw [blockStream_cons, skipBlocks, List.drop_left, ih, List.drop_succ_cons]

/-- A lookup searches the places of its block. -/
theorem holds_blockStream (blocks : List (List Nat)) (block place : Nat) :
    holds (blockStream blocks) block place = .ok (Search.find?
      (fun i => compare ((blocks.getD block []).toArray.getD i 0) place)
      (blocks.getD block []).length).isSome := by
  rw [holds, skipBlocks_blockStream]
  by_cases inside : block < blocks.length
  · rw [List.drop_eq_getElem_cons inside, blockStream_cons, List.getD_eq_getElem?_getD,
      List.getElem?_eq_getElem inside, Option.getD_some]
    simp only [List.take_left, List.size_toArray, Nat.lt_irrefl, ↓reduceIte]
  · rw [List.drop_eq_nil_of_le (Nat.le_of_not_lt inside), List.getD_eq_getElem?_getD,
      List.getElem?_eq_none (Nat.le_of_not_lt inside), Option.getD_none]
    simp [blockStream, Search.find?]

/-- The places of every block are in order and lie inside the block. -/
def InOrder (blockSize : Nat) (blocks : List (List Nat)) : Prop :=
  ∀ places ∈ blocks, places.Pairwise (· ≤ ·) ∧ ∀ place ∈ places, place < blockSize

instance (blockSize : Nat) (blocks : List (List Nat)) : Decidable (InOrder blockSize blocks) :=
  inferInstanceAs (Decidable (∀ places ∈ blocks, _ ∧ _))

/-- The block of a row names the row's place in it. -/
def names (blockSize : Nat) (blocks : List (List Nat)) (row : Nat) : Bool :=
  (blocks.getD (row / blockSize) []).contains (row % blockSize)

variable {blockSize : Nat} {blocks : List (List Nat)}

theorem holds_of_inOrder (order : InOrder blockSize blocks) (row : Nat) :
    holds (blockStream blocks) (row / blockSize) (row % blockSize) =
      .ok (names blockSize blocks row) := by
  have places : (blocks.getD (row / blockSize) []).Pairwise (· ≤ ·) := by
    rw [List.getD_eq_getElem?_getD]
    cases found : blocks[row / blockSize]? with
    | none => exact .nil
    | some places => exact (order places (List.mem_of_getElem? found)).1
  rw [holds_blockStream, Search.isSome_find? places, names]

/-- Decoding gives the rows that blocks in order name, from block number `block` on. -/
theorem mem_rowsFrom (order : InOrder blockSize blocks) {block : Nat}
    (small : (block + blocks.length) * blockSize < UInt64.size) {row : Nat} :
    row ∈ rowsFrom blockSize (block * blockSize) blocks ↔
      ∃ i, ∃ inside : i < blocks.length, ∃ place ∈ blocks[i],
        row = (block + i) * blockSize + place := by
  induction blocks generalizing block with
  | nil => simp [rowsFrom]
  | cons places rest ih =>
    have next : (block + 1) * blockSize < UInt64.size := by
      refine Nat.lt_of_le_of_lt (Nat.mul_le_mul_right _ ?_) small
      rw [List.length_cons]
      omega
    have base : (block * blockSize + blockSize) % UInt64.size = (block + 1) * blockSize := by
      rw [← Nat.succ_mul]
      exact Nat.mod_eq_of_lt next
    have here : places.map (fun place => (block * blockSize + place) % UInt64.size) =
        places.map fun place => block * blockSize + place := by
      apply List.map_congr_left
      intro place member
      have low := (order places (by simp)).2 place member
      rw [Nat.succ_mul] at next
      exact Nat.mod_eq_of_lt (by omega)
    have rest_ : block + 1 + rest.length = block + (places :: rest).length := by
      rw [List.length_cons]
      omega
    have later := ih (fun other member => order other (List.mem_cons_of_mem _ member))
      (show (block + 1 + rest.length) * blockSize < UInt64.size by rwa [rest_])
    rw [rowsFrom, base, here, List.mem_append, List.mem_map, later]
    constructor
    · rintro (⟨place, member, rfl⟩ | ⟨i, inside, place, member, rfl⟩)
      · exact ⟨0, by simp, place, member, rfl⟩
      · exact ⟨i + 1, by simpa using inside, place, member, by
          rw [show block + 1 + i = block + (i + 1) by omega]⟩
    · rintro ⟨i, inside, place, member, rfl⟩
      cases i with
      | zero => exact .inl ⟨place, member, rfl⟩
      | succ i =>
        refine .inr ⟨i, by simpa using inside, place, member, ?_⟩
        rw [show block + 1 + i = block + (i + 1) by omega]

theorem mem_rowsFrom_iff (order : InOrder blockSize blocks) (positive : 0 < blockSize)
    (small : blocks.length * blockSize < UInt64.size) {row : Nat} :
    row ∈ rowsFrom blockSize 0 blocks ↔ names blockSize blocks row = true := by
  have fits : (0 + blocks.length) * blockSize < UInt64.size := by rwa [Nat.zero_add]
  rw [← Nat.zero_mul blockSize, mem_rowsFrom order fits, names, List.contains_iff_mem]
  simp only [Nat.zero_add]
  constructor
  · rintro ⟨i, inside, place, member, rfl⟩
    have low := (order _ (List.getElem_mem inside)).2 place member
    have block : (i * blockSize + place) / blockSize = i := by
      rw [Nat.mul_comm, Nat.mul_add_div positive, Nat.div_eq_of_lt low, Nat.add_zero]
    have rest : (i * blockSize + place) % blockSize = place := by
      rw [Nat.mul_comm, Nat.mul_add_mod, Nat.mod_eq_of_lt low]
    rwa [block, rest, List.getD_eq_getElem?_getD, List.getElem?_eq_getElem inside, Option.getD_some]
  · intro member
    by_cases inside : row / blockSize < blocks.length
    · rw [List.getD_eq_getElem?_getD, List.getElem?_eq_getElem inside, Option.getD_some] at member
      exact ⟨_, inside, _, member, (Nat.div_add_mod' row blockSize).symm⟩
    · rw [List.getD_eq_getElem?_getD, List.getElem?_eq_none (Nat.le_of_not_lt inside)] at member
      simp at member

end OffsetStreams

end PackedMatrix
