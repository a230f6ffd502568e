import PackedMatrix.Proofs.CodeMapReads

namespace PackedMatrix

namespace CodeMap

/-- No bit behind the last entry is set. -/
def TailClear : CodeMap → Prop
  | bit words count => ∀ place, count ≤ place → ∀ word ∈ words[place / 64]?,
      word.toNat.testBit (place % 64) = false
  | _ => True

theorem tailClear_create (length tuples : Nat) : (create length tuples).TailClear := by
  unfold create
  split
  next =>
    intro place _ word stored
    rw [Option.mem_def, Array.getElem?_replicate] at stored
    split at stored
    next =>
      cases stored
      exact Nat.zero_testBit _
    next => cases stored
  next =>
    split
    next => trivial
    next => split <;> trivial

theorem TailClear.set {codes : CodeMap} (clear : codes.TailClear) {i : Nat}
    (bound : i < codes.length) (code : Nat) : (codes.set i code).TailClear := by
  cases codes with
  | bit words count =>
    have bound : i < count := bound
    intro place behind word stored
    rw [Option.mem_def, Array.getElem?_modify] at stored
    split at stored
    next same =>
      obtain ⟨old, known, rfl⟩ := Option.map_eq_some_iff.mp stored
      have differs : i % 64 ≠ place % 64 := by omega
      rw [testBit_putBit _ _ (Nat.mod_lt _ (by decide)) (Nat.mod_lt _ (by decide)), if_neg differs]
      exact clear place behind old known
    next => exact clear place behind word stored
  | byte => trivial
  | half => trivial
  | word => trivial

/-- The last word of a filled map keeps the bits clear that belong to no entry. -/
theorem TailClear.fill {codes : CodeMap} (sized : codes.Sized) {code : Nat}
    (fits : code ≤ codes.maxCode) : (codes.fill code).TailClear := by
  cases codes with
  | bit words count =>
    have sized : words.size = wordsFor count := sized
    have cases : code = 0 ∨ code = 1 := by
      have : code ≤ 1 := fits
      omega
    rcases cases with rfl | rfl
    · intro place _ word stored
      rw [Option.mem_def, Array.getElem?_map] at stored
      obtain ⟨_, _, rfl⟩ := Option.map_eq_some_iff.mp stored
      exact Nat.zero_testBit _
    · intro place behind word stored
      obtain ⟨filled, made, here⟩ := getElem?_fill_bit words count (place / 64)
      obtain rfl : filled = _ := (CodeMap.bit.inj made).1.symm
      rw [Option.mem_def, here] at stored
      obtain ⟨_, known, rfl⟩ := Option.map_eq_some_iff.mp stored
      obtain ⟨inside, _⟩ := Array.getElem?_eq_some_iff.mp known
      rw [sized, wordsFor] at inside
      have last : place / 64 + 1 = words.size := by
        rw [sized, wordsFor]
        omega
      rw [if_pos last, testBit_lowBits (Nat.mod_lt _ (by decide)) (Nat.mod_lt _ (by decide))]
      simp only [Bool.or_eq_false_iff, decide_eq_false_iff_not]
      omega
  | byte => trivial
  | half => trivial
  | word => trivial

/-- A map holds some codes, and nothing behind them. -/
structure Holds (codes : CodeMap) (entries : List Nat) : Prop where
  sized : codes.Sized
  clear : codes.TailClear
  length : codes.length = entries.length
  reads : ∀ i, i < entries.length → codes.get? i = entries[i]?

theorem holds_create (length tuples : Nat) :
    (create length tuples).Holds (List.replicate length 0) where
  sized := sized_create length tuples
  clear := tailClear_create length tuples
  length := by rw [length_create, List.length_replicate]
  reads := by
    intro i bound
    rw [List.length_replicate] at bound
    rw [get?_create tuples bound, List.getElem?_replicate, if_pos bound]

namespace Holds

variable {codes : CodeMap} {entries : List Nat} {code : Nat}

theorem set (holds : codes.Holds entries) {i : Nat} (bound : i < entries.length)
    (fits : code ≤ codes.maxCode) : (codes.set i code).Holds (entries.set i code) where
  sized := holds.sized.set i code
  clear := holds.clear.set (by rwa [holds.length]) code
  length := by rw [length_set, List.length_set, holds.length]
  reads := by
    intro j inside
    rw [List.length_set] at inside
    rw [get?_set holds.sized (by rwa [holds.length]) fits, holds.reads j inside, List.getElem?_set]
    by_cases same : i = j
    · subst same
      simp [inside]
    · simp [same]

theorem fill (holds : codes.Holds entries) (fits : code ≤ codes.maxCode) :
    (codes.fill code).Holds (List.replicate entries.length code) where
  sized := holds.sized.fill code
  clear := TailClear.fill holds.sized fits
  length := by rw [(fill_eq codes code).1, List.length_replicate, holds.length]
  reads := by
    intro i bound
    rw [List.length_replicate] at bound
    rw [get?_fill holds.sized (by rwa [holds.length]) fits, List.getElem?_replicate, if_pos bound]

theorem toList (holds : codes.Holds entries) : codes.toList = entries := by
  refine List.ext_getElem (by simp [CodeMap.toList, holds.length]) fun i _ inside => ?_
  simp [CodeMap.toList, holds.reads i inside, inside]

theorem validate (holds : codes.Holds entries) : codes.validate = .ok () := by
  cases codes with
  | bit words count => exact if_pos holds.sized
  | byte => rfl
  | half => rfl
  | word => rfl

end Holds

/-- Words of clear tails that show the same bits for each entry are the same. -/
theorem words_eq_of_holds {first second : Array UInt64} {count : Nat} {entries : List Nat}
    (holds : (bit first count).Holds entries) (holds' : (bit second count).Holds entries) :
    first = second := by
  have size : first.size = wordsFor count := holds.sized
  have size' : second.size = wordsFor count := holds'.sized
  have length : count = entries.length := holds.length
  refine Array.ext (by rw [size, size']) fun i inside inside' => ?_
  have known : first[i]? = some first[i] := Array.getElem?_eq_getElem inside
  have known' : second[i]? = some second[i] := Array.getElem?_eq_getElem inside'
  have bits : ∀ a b : Bool, a.toNat = b.toNat → a = b := by decide
  rw [← UInt64.toNat_inj]
  apply Nat.eq_of_testBit_eq
  intro low
  rcases Nat.lt_or_ge low 64 with short | long
  · have place : (64 * i + low) / 64 = i ∧ (64 * i + low) % 64 = low := by omega
    rcases Nat.lt_or_ge (64 * i + low) count with front | behind
    · have same := (holds.reads _ (length ▸ front)).trans (holds'.reads _ (length ▸ front)).symm
      rw [get?_bit, get?_bit, place.1, place.2, known, known'] at same
      exact bits _ _ (Option.some.inj same)
    · have clear := holds.clear (64 * i + low) behind first[i] (by rw [place.1]; exact known)
      have clear' := holds'.clear (64 * i + low) behind second[i] (by rw [place.1]; exact known')
      rw [place.2] at clear clear'
      rw [clear, clear']
  · have wide : 2 ^ 64 ≤ 2 ^ low := Nat.pow_le_pow_right (by decide) long
    rw [Nat.testBit_lt_two_pow (Nat.lt_of_lt_of_le first[i].toNat_lt wide),
      Nat.testBit_lt_two_pow (Nat.lt_of_lt_of_le second[i].toNat_lt wide)]

theorem array_eq_of_reads {ω : Type} {toNat : ω → Nat}
    (injective : ∀ a b, toNat a = toNat b → a = b) {first second : Array ω} {entries : List Nat}
    (length : first.size = entries.length)
    (length' : second.size = entries.length)
    (reads : ∀ i, i < entries.length → first[i]?.map toNat = entries[i]?)
    (reads' : ∀ i, i < entries.length → second[i]?.map toNat = entries[i]?) : first = second := by
  refine Array.ext (by rw [length, length']) fun i inside inside' => ?_
  have same := (reads i (length ▸ inside)).trans (reads' i (length ▸ inside)).symm
  rw [Array.getElem?_eq_getElem inside, Array.getElem?_eq_getElem inside'] at same
  exact injective _ _ (Option.some.inj same)

theorem Holds.unique {first second : CodeMap} {entries : List Nat} (holds : first.Holds entries)
    (holds' : second.Holds entries) (width : first.bits = second.bits) : first = second := by
  have length := holds.length
  have length' := holds'.length
  cases first with
  | bit words count =>
    cases second with
    | bit words' count' =>
      obtain rfl : count = count' := length.trans length'.symm
      rw [words_eq_of_holds holds holds']
    | _ => cases width
  | byte =>
    cases second with
    | byte =>
      rw [array_eq_of_reads (fun _ _ => UInt8.toNat_inj.mp) length length' holds.reads holds'.reads]
    | _ => cases width
  | half =>
    cases second with
    | half =>
      rw [array_eq_of_reads (fun _ _ => UInt16.toNat_inj.mp) length length' holds.reads
        holds'.reads]
    | _ => cases width
  | word =>
    cases second with
    | word =>
      rw [array_eq_of_reads (fun _ _ => UInt32.toNat_inj.mp) length length' holds.reads
        holds'.reads]
    | _ => cases width

theorem bits_set (codes : CodeMap) (i code : Nat) : (codes.set i code).bits = codes.bits := by
  cases codes <;> rfl

theorem bits_fill (codes : CodeMap) (code : Nat) : (codes.fill code).bits = codes.bits := by
  cases codes with
  | bit words count => by_cases odd : code % 2 = 1 <;> simp [fill, odd, bits]
  | byte => rfl
  | half => rfl
  | word => rfl

/-- One change of a map. -/
inductive Change
  | set (i code : Nat)
  | fill (code : Nat)

namespace Change

def run (codes : CodeMap) : Change → CodeMap
  | set i code => codes.set i code
  | fill code => codes.fill code

/-- The change of a plain list of codes. -/
def apply (entries : List Nat) : Change → List Nat
  | set i code => entries.set i code
  | fill code => List.replicate entries.length code

/-- The code that is stored. -/
def code : Change → Nat
  | set _ code => code
  | fill code => code

/-- A single entry that is changed lies inside. -/
def Inside (length : Nat) : Change → Prop
  | set i _ => i < length
  | fill _ => True

/-- The change concerns entries of a map, and its code is the number of one of so many tuples; a map
of single bits takes both bits. -/
def Fits (length tuples : Nat) (change : Change) : Prop :=
  change.Inside length ∧ (change.code < max tuples 1 ∨ tuples ≤ 1 ∧ change.code ≤ 1)

theorem Fits.code_le {length tuples : Nat} {change : Change} (fits : change.Fits length tuples)
    (few : tuples ≤ UInt32.size) : change.code ≤ (create length tuples).maxCode := by
  have single : tuples ≤ 1 → change.code ≤ 1 → change.code ≤ (create length tuples).maxCode := by
    intro only small
    rw [create, if_pos only]
    exact small
  rcases fits.2 with named | ⟨only, small⟩
  · rcases Nat.lt_or_ge 1 tuples with many | only
    · exact le_maxCode_create (by omega) few
    · exact single only (by omega)
  · exact single only small

theorem length_apply (entries : List Nat) (change : Change) :
    (apply entries change).length = entries.length := by
  cases change with
  | set i code => exact List.length_set
  | fill code => exact List.length_replicate

theorem bits_run (codes : CodeMap) (change : Change) : (run codes change).bits = codes.bits := by
  cases change with
  | set i code => exact bits_set codes i code
  | fill code => exact bits_fill codes code

theorem size_run (codes : CodeMap) (change : Change) : (run codes change).size = codes.size := by
  cases change with
  | set i code => exact size_set codes i code
  | fill code => exact (fill_eq codes code).2.1

/-- A change makes of a map what it makes of the codes that the map holds. -/
theorem holds_run {codes : CodeMap} {entries : List Nat} {change : Change}
    (holds : codes.Holds entries) (inside : change.Inside entries.length)
    (fits : change.code ≤ codes.maxCode) : (run codes change).Holds (apply entries change) := by
  cases change with
  | set i code => exact holds.set inside fits
  | fill code => exact holds.fill fits

theorem holds_foldl_run {codes : CodeMap} {entries : List Nat} {changes : List Change}
    (holds : codes.Holds entries) (inside : ∀ change ∈ changes, change.Inside entries.length)
    (fits : ∀ change ∈ changes, change.code ≤ codes.maxCode) :
    (changes.foldl run codes).Holds (changes.foldl apply entries) ∧
      (changes.foldl run codes).bits = codes.bits ∧
      (changes.foldl run codes).size = codes.size ∧
      (changes.foldl apply entries).length = entries.length := by
  induction changes generalizing codes entries with
  | nil => exact ⟨holds, rfl, rfl, rfl⟩
  | cons change rest ih =>
    have bits := bits_run codes change
    have length := length_apply entries change
    obtain ⟨later, laterBits, laterSize, laterLength⟩ :=
      ih (holds_run holds (inside change (by simp)) (fits change (by simp)))
        (by
          intro other member
          rw [length]
          exact inside other (List.mem_cons_of_mem _ member))
        (by
          intro other member
          rw [maxCode, bits]
          exact fits other (List.mem_cons_of_mem _ member))
    exact ⟨later, laterBits.trans bits, laterSize.trans (size_run codes change),
      laterLength.trans length⟩

section Created

variable {length tuples : Nat} (few : tuples ≤ UInt32.size)

include few

theorem holds_foldl_create {changes : List Change}
    (fits : ∀ change ∈ changes, change.Fits length tuples) :
    (changes.foldl run (create length tuples)).Holds
        (changes.foldl apply (List.replicate length 0)) ∧
      (changes.foldl run (create length tuples)).bits = (create length tuples).bits ∧
      (changes.foldl run (create length tuples)).size = estimateSize length tuples ∧
      (changes.foldl apply (List.replicate length 0)).length = length := by
  have run := holds_foldl_run (holds_create length tuples)
    (fun change member => by
      rw [List.length_replicate]
      exact (fits change member).1)
    fun change member => (fits change member).code_le few
  rwa [size_create, List.length_replicate] at run

/-- A map for so many tuples that is changed any number of times, by codes that fit, holds what the
same changes make of a list of zeros: its entries, their order, their number and the largest of them
are those of the list. It stays valid, takes the predicted space and has no bit set behind its last
entry, so two maps that were made alike and changed differently are the same exactly if the lists
are. -/
theorem foldl_run_agrees {changes : List Change}
    (fits : ∀ change ∈ changes, change.Fits length tuples) :
    (changes.foldl run (create length tuples)).length = length ∧
    (∀ i, i < length → (changes.foldl run (create length tuples)).get? i =
      (changes.foldl apply (List.replicate length 0))[i]?) ∧
    (changes.foldl run (create length tuples)).toList =
      changes.foldl apply (List.replicate length 0) ∧
    (changes.foldl run (create length tuples)).maxCode? =
      (changes.foldl apply (List.replicate length 0)).max? ∧
    (changes.foldl run (create length tuples)).validate = .ok () ∧
    (changes.foldl run (create length tuples)).size = estimateSize length tuples ∧
    (changes.foldl run (create length tuples)).TailClear ∧
    ∀ others : List Change, (∀ change ∈ others, change.Fits length tuples) →
      (changes.foldl run (create length tuples) = others.foldl run (create length tuples) ↔
        changes.foldl apply (List.replicate length 0) =
          others.foldl apply (List.replicate length 0)) := by
  obtain ⟨holds, bits, size, count⟩ := holds_foldl_create few fits
  refine ⟨holds.length.trans count, fun i bound => holds.reads i (count.symm ▸ bound), holds.toList,
    congrArg List.max? holds.toList, holds.validate, size, holds.clear, fun others fits' => ?_⟩
  obtain ⟨holds', bits', _, _⟩ := holds_foldl_create few fits'
  constructor
  · intro same
    rw [← holds.toList, ← holds'.toList, same]
  · intro same
    rw [← same] at holds'
    exact holds.unique holds' (bits.trans bits'.symm)

end Created

/-- Setting all bits and clearing the last one leaves the same map as setting all others one by one,
and another one than setting all bits, across the end of the first word. -/
theorem foldl_run_agrees_secondWord :
    (∀ change ∈ [fill 1, set 65 0], change.Fits 66 1) ∧
    (∀ change ∈ (List.range 65).map (set · 1), change.Fits 66 1) ∧
    [fill 1, set 65 0].foldl run (create 66 1) =
      ((List.range 65).map (set · 1)).foldl run (create 66 1) ∧
    [fill 1, set 65 0].foldl run (create 66 1) ≠ [fill 1].foldl run (create 66 1) := by
  have few : 1 ≤ UInt32.size := by decide
  have all : ∀ change ∈ [fill 1], change.Fits 66 1 := by
    intro change member
    obtain rfl := List.mem_singleton.mp member
    exact ⟨trivial, .inr ⟨by decide, by decide⟩⟩
  have butLast : ∀ change ∈ [fill 1, set 65 0], change.Fits 66 1 := by
    intro change member
    rcases List.mem_cons.mp member with rfl | member
    · exact all _ (by simp)
    · obtain rfl := List.mem_singleton.mp member
      exact ⟨show 65 < 66 by decide, .inl (by decide)⟩
  have oneByOne : ∀ change ∈ (List.range 65).map (set · 1), change.Fits 66 1 := by
    intro change member
    obtain ⟨i, listed, rfl⟩ := List.mem_map.mp member
    have inside := List.mem_range.mp listed
    exact ⟨show i < 66 by omega, .inr ⟨by decide, Nat.le_refl 1⟩⟩
  obtain ⟨_, _, _, _, _, _, _, same⟩ := foldl_run_agrees few butLast
  refine ⟨butLast, oneByOne, (same _ oneByOne).mpr (by decide +kernel), ?_⟩
  rw [Ne, same _ all]
  decide +kernel

end Change

end CodeMap

end PackedMatrix
