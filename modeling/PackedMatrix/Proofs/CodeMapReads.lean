import PackedMatrix.CodeMap
import PackedMatrix.Proofs.Writes

namespace PackedMatrix

namespace CodeMap

theorem bit_eq (word : UInt64) {place : Nat} (inside : place < 64) :
    ((word >>> UInt64.ofNat place) &&& 1).toNat = (word.toNat.testBit place).toNat := by
  have small : place % 18446744073709551616 % 64 = place := by omega
  simp only [UInt64.toNat_and, UInt64.toNat_shiftRight, UInt64.toNat_ofNat', Nat.reducePow, small,
    UInt64.toNat_one, Nat.and_one_is_mod, Nat.testBit, Nat.and_comm 1]
  rcases Nat.mod_two_eq_zero_or_one (word.toNat >>> place) with even | odd
  · simp [even]
  · simp [odd]

theorem get?_bit (words : Array UInt64) (count i : Nat) : (bit words count).get? i =
    words[i / 64]?.map fun word => (word.toNat.testBit (i % 64)).toNat := by
  simp only [get?, bit_eq _ (Nat.mod_lt i (by decide : 0 < 64))]

theorem toNat_mask {place : Nat} (inside : place < 64) :
    ((1 : UInt64) <<< UInt64.ofNat place).toNat = 1 <<< place := by
  have small : place % 18446744073709551616 % 64 = place := by omega
  have fits : 2 ^ place < 18446744073709551616 :=
    Nat.lt_of_lt_of_le (Nat.pow_lt_pow_right (by decide) inside) (by decide : 2 ^ 64 ≤ _)
  rw [UInt64.toNat_shiftLeft, UInt64.toNat_ofNat']
  simp only [Nat.reducePow, small]
  rw [UInt64.toNat_one, Nat.one_shiftLeft]
  exact Nat.mod_eq_of_lt fits

theorem testBit_mask {place : Nat} (inside : place < 64) (other : Nat) :
    ((1 : UInt64) <<< UInt64.ofNat place).toNat.testBit other = decide (place = other) := by
  rw [toNat_mask inside, Nat.one_shiftLeft, Nat.testBit_two_pow]

/-- Putting a bit changes that bit of the word only. -/
theorem testBit_putBit (word : UInt64) {place other : Nat} (on : Bool) (inside : place < 64)
    (inside' : other < 64) : (putBit word place on).toNat.testBit other =
      if place = other then on else word.toNat.testBit other := by
  have mask := testBit_mask inside other
  cases on with
  | true =>
    simp only [putBit, ↓reduceIte, UInt64.toNat_or, Nat.testBit_or, mask]
    by_cases same : place = other <;> simp [same]
  | false =>
    have flipped : (~~~((1 : UInt64) <<< UInt64.ofNat place)).toNat.testBit other =
        !decide (place = other) := by
      rw [← mask, ← UInt64.toNat_toBitVec, ← UInt64.toNat_toBitVec, BitVec.testBit_toNat,
        BitVec.testBit_toNat, UInt64.toBitVec_not, BitVec.getLsbD_not]
      simp [inside']
    simp only [putBit, Bool.false_eq_true, ↓reduceIte, UInt64.toNat_and, Nat.testBit_and, flipped]
    by_cases same : place = other <;> simp [same]

/-- The low bits are set, or all bits of the word when their number is zero. -/
theorem testBit_lowBits {count place : Nat} (short : count < 64) (inside : place < 64) :
    (lowBits count).toNat.testBit place = (decide (count = 0) || decide (place < count)) := by
  unfold lowBits
  split
  next none =>
    have full : (0xffffffffffffffff : UInt64).toNat = 2 ^ 64 - 1 := rfl
    rw [full, Nat.testBit_two_pow_sub_one]
    simp [none, inside]
  next some_ =>
    have below : (1 : UInt64) ≤ (1 : UInt64) <<< UInt64.ofNat count := by
      rw [UInt64.le_iff_toNat_le, toNat_mask short, Nat.one_shiftLeft, UInt64.toNat_one]
      exact Nat.one_le_two_pow
    rw [UInt64.toNat_sub_of_le _ _ below, toNat_mask short, Nat.one_shiftLeft,
      UInt64.toNat_one, Nat.testBit_two_pow_sub_one]
    simp [some_]

/-- The words of a bit map are as many as its entries need. -/
def Sized : CodeMap → Prop
  | bit words length => words.size = wordsFor length
  | _ => True

theorem length_set (codes : CodeMap) (i code : Nat) : (codes.set i code).length = codes.length := by
  cases codes <;> simp [set, length]

theorem size_set (codes : CodeMap) (i code : Nat) : (codes.set i code).size = codes.size := by
  cases codes <;> simp [set, size]

theorem maxCode_set (codes : CodeMap) (i code : Nat) :
    (codes.set i code).maxCode = codes.maxCode := by
  cases codes <;> rfl

theorem Sized.set {codes : CodeMap} (sized : codes.Sized) (i code : Nat) :
    (codes.set i code).Sized := by
  cases codes <;> simp_all [Sized, CodeMap.set]

theorem get?_set_bit {words : Array UInt64} {count i code : Nat}
    (sized : words.size = wordsFor count) (bound : i < count) (fits : code ≤ 1) (j : Nat) :
    ((bit words count).set i code).get? j =
      if i = j then some code else (bit words count).get? j := by
  have within : i / 64 < words.size := by
    rw [sized, wordsFor]
    omega
  have low : j % 64 < 64 := Nat.mod_lt _ (by decide)
  simp only [set, get?, Array.getElem?_modify]
  by_cases word : i / 64 = j / 64
  · rw [← word]
    have known : words[i / 64]? = some words[i / 64] := Array.getElem?_eq_getElem within
    simp only [known, ↓reduceIte, Option.map_some, bit_eq _ low,
      testBit_putBit _ _ (Nat.mod_lt i (by decide : 0 < 64)) low]
    by_cases same : i = j
    · subst same
      have : code = 0 ∨ code = 1 := by omega
      rcases this with rfl | rfl <;> simp
    · have differs : i % 64 ≠ j % 64 := by omega
      simp [same, differs]
  · have differs : i ≠ j := fun same => word (by rw [same])
    simp [word, differs]

section Words

variable {W : Type} {toWord : Nat → W} {ofWord : W → Nat} {stored : Array W} {i code : Nat}
  (bound : i < stored.size) (held : ofWord (toWord code) = code)

include bound held

theorem getElem?_set_word (j : Nat) :
    (stored.setIfInBounds i (toWord code))[j]?.map ofWord =
      if i = j then some code else stored[j]?.map ofWord := by
  rw [Array.getElem?_setIfInBounds]
  by_cases same : i = j
  · rw [if_pos same, if_pos same, if_pos bound, Option.map_some, held]
  · rw [if_neg same, if_neg same]

theorem getElem?_fill_word : (stored.map fun _ => toWord code)[i]?.map ofWord = some code := by
  rw [Array.getElem?_map, Array.getElem?_eq_getElem bound, Option.map_some, Option.map_some, held]

end Words

theorem get?_set {codes : CodeMap} (sized : codes.Sized) {i code : Nat} (bound : i < codes.length)
    (fits : code ≤ codes.maxCode) (j : Nat) :
    (codes.set i code).get? j = if i = j then some code else codes.get? j := by
  cases codes with
  | bit words count => exact get?_set_bit sized bound fits j
  | byte codes =>
    have fits : code ≤ 255 := fits
    exact getElem?_set_word bound (UInt8.toNat_ofNat_of_lt' (Nat.lt_succ_of_le fits)) j
  | half codes =>
    have fits : code ≤ 65535 := fits
    exact getElem?_set_word bound (UInt16.toNat_ofNat_of_lt' (Nat.lt_succ_of_le fits)) j
  | word codes =>
    have fits : code ≤ 4294967295 := fits
    exact getElem?_set_word bound (UInt32.toNat_ofNat_of_lt' (Nat.lt_succ_of_le fits)) j

/-- After some codes were stored, every entry has the last one stored in it. -/
theorem get?_foldl_set (writes : List (Nat × Nat)) {codes : CodeMap} (sized : codes.Sized)
    (bounds : ∀ write ∈ writes, write.1 < codes.length)
    (fits : ∀ write ∈ writes, write.2 ≤ codes.maxCode) {i : Nat} {old : Nat}
    (before : codes.get? i = some old) :
    (writes.foldl (fun made write => made.set write.1 write.2) codes).get? i =
      some ((Writes.last i writes).getD old) := by
  induction writes generalizing codes old with
  | nil => simpa using before
  | cons write rest ih =>
    have bound := bounds write (by simp)
    have fit := fits write (by simp)
    have stored := get?_set sized bound fit i
    have step : (codes.set write.1 write.2).get? i =
        some (if write.1 = i then write.2 else old) := by
      rw [stored, before]
      split <;> rfl
    rw [List.foldl_cons, ih (sized.set _ _)
      (by
        intro other member
        rw [length_set]
        exact bounds other (List.mem_cons_of_mem _ member))
      (by
        intro other member
        rw [maxCode_set]
        exact fits other (List.mem_cons_of_mem _ member)) step, Writes.last_cons]
    cases Writes.last i rest with
    | some later => rfl
    | none => by_cases here : write.1 = i <;> simp [here]

theorem length_foldl_set (writes : List (Nat × Nat)) (codes : CodeMap) :
    (writes.foldl (fun made write => made.set write.1 write.2) codes).length = codes.length := by
  induction writes generalizing codes with
  | nil => rfl
  | cons write rest ih => rw [List.foldl_cons, ih, length_set]

theorem size_foldl_set (writes : List (Nat × Nat)) (codes : CodeMap) :
    (writes.foldl (fun made write => made.set write.1 write.2) codes).size = codes.size := by
  induction writes generalizing codes with
  | nil => rfl
  | cons write rest ih => rw [List.foldl_cons, ih, size_set]

theorem Sized.foldl_set (writes : List (Nat × Nat)) {codes : CodeMap} (sized : codes.Sized) :
    (writes.foldl (fun made write => made.set write.1 write.2) codes).Sized := by
  induction writes generalizing codes with
  | nil => exact sized
  | cons write rest ih => exact ih (sized.set write.1 write.2)

/-- The words of a filled bit map: the last one has only the bits of its entries. -/
theorem getElem?_fill_bit (words : Array UInt64) (count i : Nat) :
    ∃ filled, (bit words count).fill 1 = bit filled count ∧
      filled[i]? = words[i]?.map fun _ =>
        if i + 1 = words.size then lowBits (count % 64) else lowBits 0 := by
  refine ⟨_, rfl, ?_⟩
  rw [Array.getElem?_modify, Array.getElem?_map, Array.size_map]
  cases known : words[i]? with
  | none => simp
  | some word =>
    obtain ⟨inside, _⟩ := Array.getElem?_eq_some_iff.mp known
    have last : words.size - 1 = i ↔ i + 1 = words.size := by omega
    simp only [Option.map_some, last]
    split <;> rfl

theorem get?_fill_bit {words : Array UInt64} {count i code : Nat}
    (sized : words.size = wordsFor count) (bound : i < count) (fits : code ≤ 1) :
    ((bit words count).fill code).get? i = some code := by
  have within : i / 64 < words.size := by
    rw [sized, wordsFor]
    omega
  have low : i % 64 < 64 := Nat.mod_lt _ (by decide)
  have known : words[i / 64]? = some words[i / 64] := Array.getElem?_eq_getElem within
  have cases : code = 0 ∨ code = 1 := by omega
  rcases cases with rfl | rfl
  · have empty : (bit words count).fill 0 = bit (words.map fun _ => 0) count := rfl
    simp [empty, get?_bit, known]
  · obtain ⟨filled, made, word⟩ := getElem?_fill_bit words count (i / 64)
    rw [made, get?_bit, word, known]
    have set : (if i / 64 + 1 = words.size then lowBits (count % 64)
        else lowBits 0).toNat.testBit (i % 64) = true := by
      split
      next last =>
        rw [sized, wordsFor] at last
        rw [testBit_lowBits (Nat.mod_lt _ (by decide)) low]
        simp only [Bool.or_eq_true, decide_eq_true_eq]
        omega
      next => simp [testBit_lowBits (by decide : 0 < 64) low]
    simp only [Option.map_some, set, Bool.toNat_true]

theorem get?_fill {codes : CodeMap} (sized : codes.Sized) {i code : Nat} (bound : i < codes.length)
    (fits : code ≤ codes.maxCode) : (codes.fill code).get? i = some code := by
  cases codes with
  | bit words count => exact get?_fill_bit sized bound fits
  | byte codes =>
    have fits : code ≤ 255 := fits
    exact getElem?_fill_word bound (UInt8.toNat_ofNat_of_lt' (Nat.lt_succ_of_le fits))
  | half codes =>
    have fits : code ≤ 65535 := fits
    exact getElem?_fill_word bound (UInt16.toNat_ofNat_of_lt' (Nat.lt_succ_of_le fits))
  | word codes =>
    have fits : code ≤ 4294967295 := fits
    exact getElem?_fill_word bound (UInt32.toNat_ofNat_of_lt' (Nat.lt_succ_of_le fits))

theorem fill_eq (codes : CodeMap) (code : Nat) :
    (codes.fill code).length = codes.length ∧ (codes.fill code).size = codes.size ∧
      (codes.fill code).maxCode = codes.maxCode := by
  cases codes with
  | bit words count =>
    by_cases odd : code % 2 = 1 <;> simp [fill, odd, length, size, maxCode, bits]
  | byte codes => simp [fill, length, size, maxCode, bits]
  | half codes => simp [fill, length, size, maxCode, bits]
  | word codes => simp [fill, length, size, maxCode, bits]

theorem Sized.fill {codes : CodeMap} (sized : codes.Sized) (code : Nat) :
    (codes.fill code).Sized := by
  cases codes with
  | bit words count =>
    have enough : words.size = wordsFor count := sized
    by_cases odd : code % 2 = 1 <;> simp [CodeMap.fill, odd, Sized, enough]
  | byte => trivial
  | half => trivial
  | word => trivial

theorem length_create (length tuples : Nat) : (create length tuples).length = length := by
  unfold create
  split
  next => rfl
  next =>
    split
    next => simp [CodeMap.length]
    next => split <;> simp [CodeMap.length]

theorem sized_create (length tuples : Nat) : (create length tuples).Sized := by
  unfold create
  split
  next => simp [Sized]
  next =>
    split
    next => trivial
    next => split <;> trivial

theorem size_create (length tuples : Nat) :
    (create length tuples).size = estimateSize length tuples := by
  unfold create estimateSize
  split
  next => simp [size]
  next =>
    split
    next => simp [size]
    next => split <;> simp [size]

theorem le_maxCode_create {length tuples code : Nat} (named : code < tuples)
    (few : tuples ≤ UInt32.size) : code ≤ (create length tuples).maxCode := by
  unfold create
  split
  next => exact show code ≤ 1 by omega
  next =>
    split
    next => exact show code ≤ 255 by omega
    next =>
      split
      next => exact show code ≤ 65535 by omega
      next =>
        rw [UInt32.size] at few
        exact show code ≤ 4294967295 by omega

theorem get?_create {length : Nat} (tuples : Nat) {i : Nat} (bound : i < length) :
    (create length tuples).get? i = some 0 := by
  unfold create
  split
  next =>
    have within : i / 64 < wordsFor length := by
      rw [wordsFor]
      omega
    simp [get?, within]
  next =>
    split
    next => simp [get?, bound]
    next => split <;> simp [get?, bound]

theorem get?_fill_create {length tuples code i : Nat} (named : code < tuples)
    (few : tuples ≤ UInt32.size) (bound : i < length) :
    ((create length tuples).fill code).get? i = some code :=
  get?_fill (sized_create length tuples) (by rwa [length_create]) (le_maxCode_create named few)

theorem ofList_eq (tuples : Nat) (codes : List Nat) : ofList tuples codes =
    (codes.zipIdx.map Prod.swap).foldl (fun made write => made.set write.1 write.2)
      (create codes.length tuples) := by
  rw [ofList, List.foldl_map]
  rfl

theorem size_ofList (tuples : Nat) (codes : List Nat) :
    (ofList tuples codes).size = estimateSize codes.length tuples := by
  rw [ofList_eq, size_foldl_set, size_create]

theorem length_ofList (tuples : Nat) (codes : List Nat) :
    (ofList tuples codes).length = codes.length := by
  rw [ofList_eq, length_foldl_set, length_create]

theorem sized_ofList (tuples : Nat) (codes : List Nat) : (ofList tuples codes).Sized := by
  rw [ofList_eq]
  exact (sized_create _ _).foldl_set _

/-- A map of codes that name tuples gives them back. -/
theorem get?_ofList {tuples : Nat} {codes : List Nat} (few : tuples ≤ UInt32.size)
    (named : ∀ code ∈ codes, code < tuples) {i : Nat} (bound : i < codes.length) :
    (ofList tuples codes).get? i = some codes[i] := by
  have read := get?_foldl_set (codes.zipIdx.map Prod.swap)
    (sized_create codes.length tuples)
    (by
      intro write member
      obtain ⟨⟨code, place⟩, listed, rfl⟩ := List.mem_map.mp member
      rw [length_create]
      exact (List.mem_zipIdx' listed).1)
    (by
      intro write member
      obtain ⟨⟨code, place⟩, listed, rfl⟩ := List.mem_map.mp member
      obtain ⟨within, here⟩ := List.mem_zipIdx' listed
      refine le_maxCode_create (named _ ?_) few
      rw [Prod.snd_swap, here]
      exact List.getElem_mem within)
    (get?_create tuples bound)
  rw [ofList_eq]
  apply read.trans
  rw [Writes.last_eq_some codes[i]]
  · rfl
  · intro write member same
    obtain ⟨⟨code, place⟩, listed, rfl⟩ := List.mem_map.mp member
    obtain ⟨within, here⟩ := List.mem_zipIdx' listed
    have : place = i := same
    subst this
    exact here
  · refine ⟨(i, codes[i]), List.mem_map.mpr ⟨(codes[i], i), ?_, rfl⟩, rfl⟩
    exact List.mem_zipIdx_iff_getElem?.mpr (by simp [bound])

end CodeMap

end PackedMatrix
