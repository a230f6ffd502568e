import PackedMatrix.Proofs.BitmapView
import PackedMatrix.Proofs.OffsetBlocks
import PackedMatrix.Proofs.Steps

namespace PackedMatrix

namespace Increasing

/-- Of an increasing list, the entries below a bound come first. -/
theorem takeWhile_lt {list : List Nat} (sorted : list.Pairwise (· < ·)) (bound : Nat) :
    list.takeWhile (· < bound) = list.filter (· < bound) := by
  induction list with
  | nil => rfl
  | cons first rest ih =>
    obtain ⟨least, order⟩ := List.pairwise_cons.mp sorted
    by_cases small : first < bound
    · simp [small, ih order]
    · have none : rest.filter (· < bound) = [] := by
        apply List.filter_eq_nil_iff.mpr
        intro other member
        have := least other member
        simp only [decide_eq_true_eq]
        omega
      simp [small, none]

theorem dropWhile_lt {list : List Nat} (sorted : list.Pairwise (· < ·)) (bound : Nat) :
    list.dropWhile (· < bound) = list.filter (bound ≤ ·) := by
  induction list with
  | nil => rfl
  | cons first rest ih =>
    obtain ⟨least, order⟩ := List.pairwise_cons.mp sorted
    by_cases small : first < bound
    · have behind : ¬ bound ≤ first := Nat.not_le.mpr small
      simp [small, behind, ih order]
    · have all : rest.filter (bound ≤ ·) = rest := by
        apply List.filter_eq_self.mpr
        intro other member
        have := least other member
        simp only [decide_eq_true_eq]
        omega
      simp [Nat.le_of_not_lt small, small, all]

theorem length_le {list : List Nat} (sorted : list.Pairwise (· < ·)) {bound : Nat}
    (inside : ∀ entry ∈ list, entry < bound) : list.length ≤ bound := by
  have within : ∀ entry ∈ list, entry ∈ List.range bound :=
    fun entry member => List.mem_range.mpr (inside entry member)
  have short := (List.subperm_of_subset (nodup sorted) within).length_le
  rwa [List.length_range] at short

end Increasing

namespace Streams

theorem ptr_ofLists (lists : List (List Nat)) :
    (ofLists lists).ptr = (Segments.pointers lists).map UInt32.ofNat := by
  have pointers := Segments.foldl_pointers [] lists
  rw [show Segments.pointers ([] : List (List Nat)) = #[0] from rfl, List.nil_append] at pointers
  rw [ofLists]
  simp only [pointers]

theorem data_ofLists (lists : List (List Nat)) :
    (ofLists lists).data = (lists.flatten.map UInt16.ofNat).toArray := by
  rw [ofLists, List.flatMap_id]

theorem size_data_ofLists (lists : List (List Nat)) :
    (ofLists lists).data.size = lists.flatten.length := by
  rw [data_ofLists, List.size_toArray, List.length_map]

theorem toNat_pointer {lists : List (List Nat)} (few : lists.flatten.length ≤ maxIndex) (i : Nat) :
    (UInt32.ofNat (Segments.offset lists i)).toNat = Segments.offset lists i := by
  have upTo := Segments.offset_le_length lists i
  rw [maxIndex] at few
  exact UInt32.toNat_ofNat_of_lt' (by rw [UInt32.size]; omega)

theorem words_ofLists {lists : List (List Nat)}
    (words : ∀ list ∈ lists, ∀ word ∈ list, word ≤ 65535) :
    (ofLists lists).data.toList.map UInt16.toNat = lists.flatten := by
  rw [data_ofLists, List.map_map]
  refine (List.map_congr_left fun word member => ?_).trans (List.map_id _)
  obtain ⟨list, listed, here⟩ := List.mem_flatten.mp member
  exact UInt16.toNat_ofNat_of_lt' (Nat.lt_succ_of_le (words list listed word here))

/-- A stream gives back its words, if these fit 16 bits and the pointers fit 32. -/
theorem stream_ofLists {lists : List (List Nat)}
    (words : ∀ list ∈ lists, ∀ word ∈ list, word ≤ 65535)
    (few : lists.flatten.length ≤ maxIndex) {i : Nat} (inside : i < lists.length) :
    (ofLists lists).stream i = .ok lists[i] := by
  have pointer : ∀ j, j ≤ lists.length →
      (ofLists lists).ptr[j]? = some (UInt32.ofNat (Segments.offset lists j)) := by
    intro j bound
    rw [ptr_ofLists, Array.getElem?_map, Segments.getElem?_pointers bound, Option.map_some]
  have order := Segments.offset_mono lists (Nat.le_succ i)
  have upTo := Segments.offset_le_length lists (i + 1)
  have data : ((ofLists lists).data.extract (Segments.offset lists i)
      (Segments.offset lists (i + 1))).toList.map UInt16.toNat = lists[i] := by
    have part := Segments.extract_flatten inside
    rw [Array.toList_extract, List.extract_eq_take_drop] at part
    rw [Array.toList_extract, List.extract_eq_take_drop, List.map_take, List.map_drop,
      words_ofLists words, part]
  rw [stream, pointer i (by omega), pointer (i + 1) inside]
  simp only [toNat_pointer few, size_data_ofLists, order, upTo, and_self, ↓reduceIte, data]

theorem size_ofLists (lists : List (List Nat)) :
    (ofLists lists).size = (lists.length + 1) * 4 + lists.flatten.length * 2 := by
  rw [size, size_data_ofLists, ptr_ofLists, Array.size_map, Segments.size_pointers]

end Streams

namespace Bitmap

/-- The first list that names a row. -/
def listOf? (bitmap : Bitmap) (row : Nat) : Option Nat :=
  bitmap.lists.findIdx? fun list => list.contains row

theorem listOf?_eq_some {bitmap : Bitmap} {columns rows : Nat}
    (valid : bitmap.WellFormed columns rows) {row i : Nat} :
    bitmap.listOf? row = some i ↔ row ∈ bitmap.list i := by
  rw [listOf?, List.findIdx?_eq_some_iff_getElem]
  constructor
  · rintro ⟨inside, here, _⟩
    rw [list_eq_getElem inside]
    simpa using here
  · intro member
    have inside := lt_tuples_of_mem_list member
    refine ⟨inside, ?_, ?_⟩
    · rw [list_eq_getElem inside] at member
      simpa using member
    · intro j before
      have apart : row ∉ bitmap.list j := by
        intro other
        have := valid.list_unique member other
        omega
      rw [list_eq_getElem (Nat.lt_trans before inside)] at apart
      simpa using apart

theorem listOf?_eq_none {bitmap : Bitmap} {row : Nat} :
    bitmap.listOf? row = none ↔ row ∉ bitmap.lists.flatten := by
  rw [listOf?, List.findIdx?_eq_none_iff, List.mem_flatten]
  simp

theorem listOf?_eq_find? (bitmap : Bitmap) (row : Nat) :
    bitmap.listOf? row =
      (List.range' 0 bitmap.tuples).find? fun i => (bitmap.list i).contains row := by
  refine Option.ext fun i => ?_
  rw [listOf?, List.findIdx?_eq_some_iff_getElem, List.find?_range'_eq_some]
  constructor
  · rintro ⟨inside, here, before⟩
    have counted : i < 0 + bitmap.tuples := by rwa [tuples, Nat.zero_add]
    refine ⟨by rwa [list_eq_getElem inside], List.mem_range'_1.mpr ⟨Nat.zero_le _, counted⟩, ?_⟩
    intro j _ less
    rw [list_eq_getElem (Nat.lt_trans less inside)]
    simpa using before j less
  · rintro ⟨here, member, before⟩
    have inside : i < bitmap.lists.length := by
      have := (List.mem_range'_1.mp member).2
      rw [tuples] at this
      omega
    refine ⟨inside, by rwa [list_eq_getElem inside] at here, fun j less => ?_⟩
    have other := before j (Nat.zero_le _) less
    rw [list_eq_getElem (Nat.lt_trans less inside)] at other
    simpa using other

theorem listOf?_eq_some_of_validate {bitmap : Bitmap} {columns : List Nat} {rows : Nat}
    (accepted : bitmap.validate columns rows = .ok ()) {row i : Nat} :
    bitmap.listOf? row = some i ↔ row ∈ bitmap.list i := by
  obtain ⟨other, valid, same⟩ := exists_wellFormed accepted
  have found := @listOf?_eq_some other _ _ valid row i
  rwa [listOf?, list, same] at found

end Bitmap

namespace OffsetStreams

variable {blockSize : Nat} {list : List Nat}

/-- The rows of one block. -/
def blockRows (blockSize : Nat) (list : List Nat) (block : Nat) : List Nat :=
  list.filter (· / blockSize == block)

/-- The words of one block: the number of its rows, and their places. -/
def blockWords (blockSize : Nat) (list : List Nat) (block : Nat) : List Nat :=
  (blockRows blockSize list block).length :: (blockRows blockSize list block).map (· % blockSize)

theorem mem_blockRows {row block : Nat} :
    row ∈ blockRows blockSize list block ↔ row ∈ list ∧ row / blockSize = block := by
  rw [blockRows, List.mem_filter, beq_iff_eq]

theorem increasing_places (blockSize : Nat) (sorted : list.Pairwise (· < ·)) (block : Nat) :
    ((blockRows blockSize list block).map (· % blockSize)).Pairwise (· < ·) := by
  refine List.pairwise_map.mpr (List.Pairwise.imp_of_mem ?_ (sorted.filter _))
  intro a b first second less
  have same := (mem_blockRows.mp first).2.trans (mem_blockRows.mp second).2.symm
  have splitA := Nat.div_add_mod a blockSize
  have splitB := Nat.div_add_mod b blockSize
  rw [same] at splitA
  omega

/-- A block's words fit 16 bits, as its places do. -/
theorem le_of_mem_blockWords (sorted : list.Pairwise (· < ·)) (positive : 0 < blockSize)
    {block : Nat}
    {word : Nat} (member : word ∈ blockWords blockSize list block) : word ≤ blockSize := by
  have places : ∀ place ∈ (blockRows blockSize list block).map (· % blockSize),
      place < blockSize := by
    intro place listed
    obtain ⟨row, _, rfl⟩ := List.mem_map.mp listed
    exact Nat.mod_lt row positive
  rcases List.mem_cons.mp member with rfl | listed
  · have count := Increasing.length_le (increasing_places blockSize sorted block) places
    rwa [List.length_map] at count
  · exact Nat.le_of_lt (places word listed)

theorem encodeBlocks_eq (sorted : list.Pairwise (· < ·)) (positive : 0 < blockSize)
    (blocks block : Nat) (words : Array Nat) :
    encodeBlocks blockSize blocks block (list.filter (block * blockSize ≤ ·)) words =
      words ++ ((List.range' block blocks).flatMap (blockWords blockSize list)).toArray := by
  induction blocks generalizing block words with
  | zero => simp [encodeBlocks]
  | succ blocks ih =>
    have order := sorted.filter (block * blockSize ≤ ·)
    have inside : (list.filter (block * blockSize ≤ ·)).takeWhile (· < (block + 1) * blockSize) =
        blockRows blockSize list block := by
      rw [Increasing.takeWhile_lt order, List.filter_filter, blockRows]
      apply List.filter_congr
      intro row _
      rw [Bool.eq_iff_iff, Bool.and_eq_true, decide_eq_true_eq, decide_eq_true_eq, beq_iff_eq,
        Nat.div_eq_iff positive, Nat.succ_mul]
      omega
    have rest : (list.filter (block * blockSize ≤ ·)).dropWhile (· < (block + 1) * blockSize) =
        list.filter ((block + 1) * blockSize ≤ ·) := by
      rw [Increasing.dropWhile_lt order, List.filter_filter]
      apply List.filter_congr
      intro row _
      rw [Bool.eq_iff_iff, Bool.and_eq_true, decide_eq_true_eq, decide_eq_true_eq, Nat.succ_mul]
      omega
    have places : ∀ words : Array Nat, (blockRows blockSize list block).foldl
        (fun words row => words.push (row - block * blockSize)) words =
          words ++ ((blockRows blockSize list block).map (· % blockSize)).toArray := by
      intro words
      rw [List.foldl_push_eq_append]
      congr 2
      apply List.map_congr_left
      intro row member
      have here := (mem_blockRows.mp member).2
      have split := Nat.div_add_mod' row blockSize
      rw [here] at split
      omega
    rw [encodeBlocks, inside, rest, ih, places, List.range'_succ, List.flatMap_cons, blockWords]
    simp

theorem div_lt_blocksFor (blockSize : Nat) (sorted : list.Pairwise (· < ·)) {row : Nat}
    (member : row ∈ list) :
    row / blockSize < blocksFor blockSize list := by
  obtain ⟨i, inside, rfl⟩ := List.mem_iff_getElem.mp member
  have last : list.getLast? = some list[list.length - 1] := by
    rw [List.getLast?_eq_getElem?, List.getElem?_eq_getElem (by omega)]
  have order := Increasing.getElem_le sorted (show i ≤ list.length - 1 by omega) (by omega)
  rw [blocksFor, last]
  exact Nat.lt_succ_of_le (Nat.div_le_div_right order)

theorem encode_eq (sorted : list.Pairwise (· < ·)) (positive : 0 < blockSize) :
    encode blockSize list =
      (List.range' 0 (blocksFor blockSize list)).flatMap (blockWords blockSize list) := by
  have all : list.filter (0 * blockSize ≤ ·) = list := by
    apply List.filter_eq_self.mpr
    intro row _
    simp
  have made := encodeBlocks_eq sorted positive (blocksFor blockSize list) 0 #[]
  rw [all] at made
  rw [encode, made]
  simp

theorem le_of_mem_encode (sorted : list.Pairwise (· < ·)) (positive : 0 < blockSize) {word : Nat}
    (member : word ∈ encode blockSize list) : word ≤ blockSize := by
  rw [encode_eq sorted positive] at member
  obtain ⟨block, _, inside⟩ := List.mem_flatMap.mp member
  exact le_of_mem_blockWords sorted positive inside

/-- The number of words is the one that was counted beforehand. -/
theorem length_encode (sorted : list.Pairwise (· < ·)) (positive : 0 < blockSize) :
    (encode blockSize list).length = streamLength blockSize list := by
  have upTo : ∀ blocks, ((List.range' 0 blocks).flatMap (blockWords blockSize list)).length =
      blocks + list.countP (· / blockSize < blocks) := by
    intro blocks
    induction blocks with
    | zero => simp
    | succ blocks ih =>
      have split : list.countP (· / blockSize < blocks + 1) =
          list.countP (· / blockSize < blocks) + (blockRows blockSize list blocks).length := by
        rw [blockRows, ← List.countP_eq_length_filter]
        clear ih sorted
        induction list with
        | nil => rfl
        | cons row rest ih =>
          simp only [List.countP_cons, ih, decide_eq_true_eq, beq_iff_eq]
          split <;> split <;> split <;> omega
      rw [List.range'_concat, List.flatMap_append, List.length_append, ih, split]
      simp only [Nat.one_mul, Nat.zero_add, List.flatMap_singleton, blockWords, List.length_cons,
        List.length_map]
      omega
  have all : list.countP (· / blockSize < blocksFor blockSize list) = list.length := by
    apply List.countP_eq_length.mpr
    intro row member
    exact decide_eq_true (div_lt_blocksFor blockSize sorted member)
  rw [encode_eq sorted positive, upTo, all, streamLength]

/-- The places of the rows, block by block. -/
def blocksOf (blockSize : Nat) (list : List Nat) : List (List Nat) :=
  (List.range' 0 (blocksFor blockSize list)).map fun block =>
    (blockRows blockSize list block).map (· % blockSize)

theorem length_blocksOf (blockSize : Nat) (list : List Nat) :
    (blocksOf blockSize list).length = blocksFor blockSize list := by
  rw [blocksOf, List.length_map, List.length_range']

theorem encode_eq_blockStream (sorted : list.Pairwise (· < ·)) (positive : 0 < blockSize) :
    encode blockSize list = blockStream (blocksOf blockSize list) := by
  rw [encode_eq sorted positive, blockStream, blocksOf, List.flatMap_map]
  simp only [List.length_map]
  rfl

theorem inOrder_blocksOf (sorted : list.Pairwise (· < ·)) (positive : 0 < blockSize) :
    InOrder blockSize (blocksOf blockSize list) := by
  intro places member
  obtain ⟨block, _, rfl⟩ := List.mem_map.mp member
  refine ⟨(increasing_places blockSize sorted block).imp Nat.le_of_lt, ?_⟩
  intro place listed
  obtain ⟨row, _, rfl⟩ := List.mem_map.mp listed
  exact Nat.mod_lt row positive

theorem names_blocksOf (sorted : list.Pairwise (· < ·)) (row : Nat) :
    names blockSize (blocksOf blockSize list) row = list.contains row := by
  rw [Bool.eq_iff_iff, names, List.contains_iff_mem, List.contains_iff_mem]
  have here : row % blockSize ∈
      (blockRows blockSize list (row / blockSize)).map (· % blockSize) ↔ row ∈ list := by
    constructor
    · intro member
      obtain ⟨other, listed, same⟩ := List.mem_map.mp member
      obtain ⟨known, block⟩ := mem_blockRows.mp listed
      have split := Nat.div_add_mod row blockSize
      have splitO := Nat.div_add_mod other blockSize
      rw [block, same, split] at splitO
      rwa [splitO]
    · intro member
      exact List.mem_map.mpr ⟨row, mem_blockRows.mpr ⟨member, rfl⟩, rfl⟩
  rcases Nat.lt_or_ge (row / blockSize) (blocksFor blockSize list) with inside | behind
  · have found : (blocksOf blockSize list).getD (row / blockSize) [] =
        (blockRows blockSize list (row / blockSize)).map (· % blockSize) := by
      simp [blocksOf, List.getD_eq_getElem?_getD, inside]
    rw [found, here]
  · have none : (blocksOf blockSize list).getD (row / blockSize) [] = [] := by
      rw [List.getD_eq_getElem?_getD, List.getElem?_eq_none (by rwa [length_blocksOf]),
        Option.getD_none]
    rw [none]
    refine ⟨fun member => (by simp at member), fun member => ?_⟩
    exact absurd (div_lt_blocksFor blockSize sorted member) (Nat.not_lt.mpr behind)

/-- The rows of an increasing list, block by block, are the list. -/
theorem flatMap_blockRows (sorted : list.Pairwise (· < ·)) :
    (List.range' 0 (blocksFor blockSize list)).flatMap (blockRows blockSize list) = list := by
  have increasing : ((List.range' 0 (blocksFor blockSize list)).flatMap
      (blockRows blockSize list)).Pairwise (· < ·) := by
    refine List.pairwise_flatMap.mpr ⟨fun _ _ => sorted.filter _, ?_⟩
    refine List.Pairwise.imp ?_ List.pairwise_lt_range'
    intro earlier later less a first b second
    have blocks : a / blockSize < b / blockSize := by
      rwa [(mem_blockRows.mp first).2, (mem_blockRows.mp second).2]
    exact Nat.lt_of_div_lt_div blocks
  refine Increasing.eq_of_mem_iff increasing sorted fun row => ?_
  rw [List.mem_flatMap]
  constructor
  · rintro ⟨block, _, member⟩
    exact (mem_blockRows.mp member).1
  · intro member
    have block := div_lt_blocksFor blockSize sorted member
    refine ⟨row / blockSize, List.mem_range'_1.mpr ?_, mem_blockRows.mpr ⟨member, rfl⟩⟩
    exact ⟨Nat.zero_le _, by rwa [Nat.zero_add]⟩

/-- Decoding the blocks of a list moves each place back behind the start of its block. -/
theorem rowsFrom_blocks (positive : 0 < blockSize) {block count : Nat}
    (small : (block + count) * blockSize < UInt64.size) :
    rowsFrom blockSize (block * blockSize) ((List.range' block count).map fun block =>
      (blockRows blockSize list block).map (· % blockSize)) =
        (List.range' block count).flatMap (blockRows blockSize list) := by
  induction count generalizing block with
  | zero => rfl
  | succ count ih =>
    have next : (block + 1 + count) * blockSize < UInt64.size := by
      rwa [Nat.add_assoc, Nat.add_comm 1]
    have ends : block * blockSize + blockSize < UInt64.size := by
      have := Nat.mul_le_mul_right blockSize (show block + 1 ≤ block + 1 + count by omega)
      rw [Nat.succ_mul] at this
      omega
    have here : ((blockRows blockSize list block).map (· % blockSize)).map
        (fun place => (block * blockSize + place) % UInt64.size) =
          blockRows blockSize list block := by
      rw [List.map_map]
      refine (List.map_congr_left fun row member => ?_).trans (List.map_id _)
      have split := Nat.div_add_mod' row blockSize
      have low := Nat.mod_lt row positive
      rw [(mem_blockRows.mp member).2] at split
      simp only [Function.comp_apply, id_eq]
      rw [Nat.mod_eq_of_lt (by omega)]
      exact split
    rw [List.range'_succ, List.map_cons, List.flatMap_cons, rowsFrom, here, Nat.mod_eq_of_lt ends,
      ← Nat.succ_mul, ih next]

theorem rowsFrom_blocksOf (sorted : list.Pairwise (· < ·)) (positive : 0 < blockSize)
    (small : blocksFor blockSize list * blockSize < UInt64.size) :
    rowsFrom blockSize 0 (blocksOf blockSize list) = list := by
  have decoded := @rowsFrom_blocks blockSize list positive 0 (blocksFor blockSize list)
    (by rwa [Nat.zero_add])
  rwa [Nat.zero_mul, flatMap_blockRows sorted] at decoded

/-- A lookup finds a row's place in its block exactly when the list names the row. -/
theorem holds_encode (sorted : list.Pairwise (· < ·)) (positive : 0 < blockSize) (row : Nat) :
    holds (encode blockSize list) (row / blockSize) (row % blockSize) =
      .ok (list.contains row) := by
  rw [encode_eq_blockStream sorted positive,
    holds_of_inOrder (inOrder_blocksOf sorted positive), names_blocksOf sorted]

theorem findTuple_eq {offsets : OffsetStreams} {block place tuples : Nat} {holds? : Nat → Bool}
    (reads : ∀ i, i < tuples → ∃ words,
      offsets.streams.stream i = .ok words ∧ holds words block place = .ok (holds? i)) :
    offsets.findTuple block place tuples 0 = .ok ((List.range' 0 tuples).find? holds?) := by
  refine count_find_eq (fun _ => rfl) (fun count tuple inside => ?_) (Nat.le_of_eq (Nat.zero_add _))
  obtain ⟨words, read, held⟩ := reads tuple inside
  rw [findTuple, read]
  simp only [held]
  cases holds? tuple <;> rfl

section OfBitmap

variable {bitmap : Bitmap} {columns rows : Nat} {offsets : OffsetStreams}

theorem length_flatten_encode (valid : bitmap.WellFormed columns rows) (positive : 0 < blockSize) :
    (bitmap.lists.map (encode blockSize)).flatten.length =
      total (bitmap.lists.map (streamLength blockSize)) := by
  rw [Segments.length_flatten, List.map_map]
  congr 1
  apply List.map_congr_left
  intro list member
  exact length_encode (valid.increasing list member) positive

theorem ofBitmap_eq_ok (valid : bitmap.WellFormed columns rows)
    (h : ofBitmap bitmap blockSize = .ok offsets) :
    0 < blockSize ∧ blockSize ≤ 65535 ∧ offsets.blockSize = blockSize ∧
      offsets.streams = .ofLists (bitmap.lists.map (encode blockSize)) ∧
      (bitmap.lists.map (encode blockSize)).flatten.length ≤ maxIndex := by
  simp only [ofBitmap, guard_eq_ok_iff] at h
  obtain ⟨range, few, h⟩ := h
  cases h
  rw [Settings.maxOffsetBlockSize] at range
  have positive : 0 < blockSize := by omega
  refine ⟨positive, by omega, rfl, rfl, ?_⟩
  rw [length_flatten_encode valid positive]
  exact Nat.le_of_not_lt few

theorem stream_ofBitmap (valid : bitmap.WellFormed columns rows)
    (h : ofBitmap bitmap blockSize = .ok offsets) {i : Nat} (inside : i < bitmap.lists.length) :
    offsets.streams.stream i = .ok (encode blockSize bitmap.lists[i]) := by
  obtain ⟨positive, most, _, streams, few⟩ := ofBitmap_eq_ok valid h
  have words : ∀ words ∈ bitmap.lists.map (encode blockSize), ∀ word ∈ words, word ≤ 65535 := by
    intro words listed word member
    obtain ⟨list, here, rfl⟩ := List.mem_map.mp listed
    exact Nat.le_trans (le_of_mem_encode (valid.increasing list here) positive member) most
  rw [streams, Streams.stream_ofLists words few (by rwa [List.length_map]), List.getElem_map]

theorem rowsOf_ofBitmap (valid : bitmap.WellFormed columns rows)
    (h : ofBitmap bitmap blockSize = .ok offsets) {i : Nat} (inside : i < bitmap.tuples) :
    offsets.rowsOf i = .ok (bitmap.list i) := by
  obtain ⟨positive, most, size, _, few⟩ := ofBitmap_eq_ok valid h
  have sorted := valid.increasing _ (List.getElem_mem inside)
  have blocks : blocksFor blockSize bitmap.lists[i] ≤ maxIndex := by
    have part := (List.sublist_flatten_of_mem
      (List.mem_map_of_mem (f := encode blockSize) (List.getElem_mem inside))).length_le
    rw [length_encode sorted positive, streamLength] at part
    omega
  have small : blocksFor blockSize bitmap.lists[i] * blockSize < UInt64.size := by
    have product := Nat.mul_le_mul blocks most
    rw [maxIndex] at product
    rw [UInt64.size]
    omega
  rw [rowsOf, stream_ofBitmap valid h inside, size, encode_eq_blockStream sorted positive]
  simp only [bind, Except.bind, decode_blockStream, pure, Except.pure, Array.toList_append,
    List.nil_append, rowsFrom_blocksOf sorted positive small, Bitmap.list_eq_getElem inside]

theorem tupleIn_eq {dictionary : Dictionary} (wide : dictionary.width ≠ 0) (row : Nat) :
    offsets.tupleIn dictionary row = offsets.tupleOf dictionary.tuples row := by
  rw [tupleIn, Dictionary.count, if_neg wide]
  rfl

theorem tupleOf_ofBitmap (valid : bitmap.WellFormed columns rows)
    (h : ofBitmap bitmap blockSize = .ok offsets) (row : Nat) :
    offsets.tupleOf bitmap.tuples row = .ok (bitmap.listOf? row) := by
  obtain ⟨positive, most, size, _⟩ := ofBitmap_eq_ok valid h
  have place : row % blockSize % UInt16.size = row % blockSize := by
    have := Nat.mod_lt row positive
    rw [UInt16.size]
    omega
  rw [tupleOf, size, if_neg (by omega), place, Bitmap.listOf?_eq_find?]
  refine findTuple_eq fun i inside => ⟨_, stream_ofBitmap valid h inside, ?_⟩
  rw [Bitmap.list_eq_getElem inside]
  exact holds_encode (valid.increasing _ (List.getElem_mem inside)) positive row

end OfBitmap

end OffsetStreams

end PackedMatrix
