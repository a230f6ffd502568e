import PackedMatrix.Proofs.RecordedEstimates
import PackedMatrix.Proofs.Workers

namespace PackedMatrix

namespace Statistics

section Upsert

variable {κ α : Type} {rank : κ → Nat} {key : κ} {entries : List (κ × α)}

/-- A new key goes between the smaller and the larger ones, and the value of a known one is
changed where it stands. -/
theorem upsert_eq (injective : ∀ {a b : κ}, rank a = rank b → a = b) (key : κ) (fresh : α)
    (change : α → α) (ordered : entries.Pairwise fun a b => rank a.1 < rank b.1) :
    (∃ front back, entries = front ++ back ∧ (∀ entry ∈ front, rank entry.1 < rank key) ∧
        (∀ entry ∈ back, rank key < rank entry.1) ∧
        upsert rank key fresh change entries = front ++ (key, fresh) :: back) ∨
      ∃ front old back, entries = front ++ (key, old) :: back ∧
        upsert rank key fresh change entries = front ++ (key, change old) :: back := by
  induction entries with
  | nil => exact .inl ⟨[], [], rfl, by simp, by simp, rfl⟩
  | cons first rest ih =>
    obtain ⟨other, value⟩ := first
    obtain ⟨behind, sorted⟩ := List.pairwise_cons.mp ordered
    rw [upsert]
    split
    next before =>
      refine .inl ⟨[], (other, value) :: rest, rfl, by simp, fun entry member => ?_, rfl⟩
      rcases List.mem_cons.mp member with rfl | later
      · exact before
      · exact Nat.lt_trans before (behind entry later)
    next not_before =>
      split
      next same =>
        obtain rfl := injective same
        exact .inr ⟨[], value, rest, rfl, rfl⟩
      next differs =>
        rcases ih sorted with ⟨front, back, rfl, smaller, larger, made⟩ |
          ⟨front, old, back, rfl, made⟩
        · refine .inl ⟨(other, value) :: front, back, rfl, ?_, larger, by rw [made]; rfl⟩
          intro entry member
          rcases List.mem_cons.mp member with rfl | later
          · exact Nat.lt_of_le_of_ne (Nat.le_of_not_lt not_before) (Ne.symm differs)
          · exact smaller entry later
        · exact .inr ⟨(other, value) :: front, old, back, rfl, by rw [made]; rfl⟩

theorem ordered_upsert (injective : ∀ {a b : κ}, rank a = rank b → a = b) (key : κ) (fresh : α)
    (change : α → α) (ordered : entries.Pairwise fun a b => rank a.1 < rank b.1) :
    (upsert rank key fresh change entries).Pairwise fun a b => rank a.1 < rank b.1 := by
  rcases upsert_eq injective key fresh change ordered with
    ⟨front, back, rfl, smaller, larger, made⟩ | ⟨front, old, back, rfl, made⟩
  · obtain ⟨first, last, across⟩ := List.pairwise_append.mp ordered
    rw [made]
    refine List.pairwise_append.mpr ⟨first, List.pairwise_cons.mpr ⟨larger, last⟩, ?_⟩
    intro entry before other member
    rcases List.mem_cons.mp member with rfl | behind
    · exact smaller entry before
    · exact across entry before other behind
  · have keys : (front ++ (key, change old) :: back).map Prod.fst =
        (front ++ (key, old) :: back).map Prod.fst := by simp
    rw [made, ← List.pairwise_map (f := Prod.fst) (R := fun a b => rank a < rank b), keys,
      List.pairwise_map]
    exact ordered

/-- A key in an ordered list has one value, and the other keys are the rest. -/
theorem mem_ordered_iff {front back : List (κ × α)} {value : α}
    (ordered : (front ++ (key, value) :: back).Pairwise fun a b => rank a.1 < rank b.1)
    {entry : κ × α} : entry ∈ front ++ (key, value) :: back ↔
      entry = (key, value) ∨ entry.1 ≠ key ∧ entry ∈ front ++ back := by
  obtain ⟨_, later, across⟩ := List.pairwise_append.mp ordered
  have front_ne : ∀ entry ∈ front, entry.1 ≠ key := by
    rintro entry member rfl
    exact Nat.lt_irrefl _ (across entry member (entry.1, value) (by simp))
  have back_ne : ∀ entry ∈ back, entry.1 ≠ key := by
    rintro entry member rfl
    exact Nat.lt_irrefl _ ((List.pairwise_cons.mp later).1 entry member)
  simp only [List.mem_append, List.mem_cons]
  constructor
  · rintro (before | here | behind)
    · exact .inr ⟨front_ne entry before, .inl before⟩
    · exact .inl here
    · exact .inr ⟨back_ne entry behind, .inr behind⟩
  · rintro (here | ⟨_, before | behind⟩)
    · exact .inr (.inl here)
    · exact .inl before
    · exact .inr (.inr behind)

end Upsert

/-- The counts list each encoding that was seen once, in order, with how often it was seen. -/
structure Tally (seen : List Encoding) (counts : List (Encoding × Nat)) : Prop where
  ordered : counts.Pairwise fun a b => a.1.rank < b.1.rank
  counted : ∀ encoding count,
    (encoding, count) ∈ counts ↔ 0 < count ∧ count = seen.count encoding
  sum : total (counts.map Prod.snd) = seen.length

namespace Tally

variable {seen : List Encoding} {counts : List (Encoding × Nat)}

theorem nil : Tally [] [] := ⟨.nil, by simp; omega, rfl⟩

theorem cons (tally : Tally seen counts) (encoding : Encoding) :
    Tally (encoding :: seen) (upsert Encoding.rank encoding 1 (· + 1) counts) := by
  obtain ⟨ordered, counted, sum⟩ := tally
  have ordered' := ordered_upsert Encoding.rank_injective encoding 1 (· + 1) ordered
  rcases upsert_eq Encoding.rank_injective encoding 1 (· + 1) ordered with
    ⟨front, back, rfl, smaller, larger, made⟩ | ⟨front, old, back, rfl, made⟩
  · have unseen : seen.count encoding = 0 := by
      by_contra seen_
      rcases List.mem_append.mp ((counted encoding _).mpr ⟨by omega, rfl⟩) with before | behind
      · exact Nat.lt_irrefl _ (smaller _ before)
      · exact Nat.lt_irrefl _ (larger _ behind)
    rw [made] at ordered' ⊢
    refine ⟨ordered', fun other count => ?_, ?_⟩
    · rw [mem_ordered_iff ordered', counted, List.count_cons]
      grind
    · simp only [List.map_append, List.map_cons, total_append, total_cons, List.length_cons,
        ← sum]
      omega
  · have known := (counted encoding old).mp (by simp)
    rw [made] at ordered' ⊢
    refine ⟨ordered', fun other count => ?_, ?_⟩
    · have before := counted other count
      rw [mem_ordered_iff ordered] at before
      rw [mem_ordered_iff ordered', List.count_cons]
      grind
    · simp only [List.map_append, List.map_cons, total_append, total_cons, List.length_cons,
        ← sum]
      omega

theorem foldl (tally : Tally seen counts) (encodings : List Encoding) :
    Tally (encodings.reverse ++ seen) (encodings.foldl
      (fun counts encoding => upsert Encoding.rank encoding 1 (· + 1) counts) counts) := by
  induction encodings generalizing seen counts with
  | nil => exact tally
  | cons encoding rest ih =>
    rw [List.reverse_cons, List.append_assoc]
    exact ih (tally.cons encoding)

end Tally

/-- The statistics are those of a compressed matrix. -/
structure Describes (stats : Statistics) (packed : Packed) : Prop where
  compressedSize : stats.compressedSize = packed.size
  smaller : packed.size < stats.inputSize
  groups : stats.groups = packed.groups.length
  sum : total (stats.groupTypes.map Prod.snd) = packed.groups.length
  distinct : (stats.groupTypes.map Prod.fst).Nodup
  counted : ∀ encoding count, (encoding, count) ∈ stats.groupTypes ↔
    0 < count ∧ count = packed.groups.countP (·.encoding == encoding)

/-- The statistics are those of an input that is handed back. -/
structure Untouched (stats : Statistics) : Prop where
  compressedSize : stats.compressedSize = stats.inputSize
  ratio : stats.ratio = .ofFloat 1.0
  groups : stats.groups = 0
  groupTypes : stats.groupTypes = []

theorem untouched_withAbort (stats : Statistics) (reason : AbortReason) :
    (stats.withAbort reason).Untouched := ⟨rfl, rfl, rfl, rfl⟩

/-- Counting the groups of a matrix that is smaller than the input describes the matrix. -/
theorem describes_recordGroups {stats : Statistics} {packed : Packed} {size : Nat}
    (unset : stats.Open size) (small : packed.size < size) :
    (packed.groups.foldl (fun stats group => stats.recordGroup group.encoding)
      (stats.setCompressedSize packed.size)).Describes packed := by
  obtain ⟨rfl, none_, empty, _⟩ := unset
  have tally := Tally.nil.foldl (packed.groups.map Group.encoding)
  rw [Compressor.foldl_recordGroup]
  simp only [setCompressedSize, none_, empty, Nat.zero_add]
  refine ⟨rfl, small, rfl, ?_, ?_, fun encoding count => ?_⟩
  · rw [tally.sum]
    simp
  · refine List.pairwise_map.mpr (tally.ordered.imp ?_)
    rintro a b before same
    exact Nat.ne_of_lt before (congrArg Encoding.rank same)
  · rw [tally.counted, List.append_nil, List.count_reverse, List.count_eq_countP, List.countP_map]
    rfl

end Statistics

namespace ColumnCosts

variable {source : Source} {settings : Settings} {costs : List ColumnCosts}

/-- No column takes less space in an enabled encoding than as a copy. -/
def NoneWorthwhile (source : Source) (settings : Settings) : Prop :=
  ∀ col, col < source.cols → ∃ costs, ofColumns source settings [col] = .ok costs ∧
    costs.uncompressedSize ≤ costs.best.size

theorem compressibleCount_eq_zero_iff (h : ofSource source settings = .ok costs) :
    compressibleCount costs = 0 ↔ NoneWorthwhile source settings := by
  rw [compressibleCount, List.countP_eq_zero]
  constructor
  · intro none_ col inside
    obtain ⟨cost, member, found⟩ := exists_of_mapM h (List.mem_range.mpr inside)
    exact ⟨cost, found, by simpa [isCompressible] using none_ cost member⟩
  · intro each cost member
    obtain ⟨col, inside, found⟩ := exists_of_mem_mapM h member
    obtain ⟨other, found', large⟩ := each col (List.mem_range.mp inside)
    obtain rfl : cost = other := Except.ok.inj (found.symm.trans found')
    simpa [isCompressible] using large

end ColumnCosts

namespace Compressor

variable {block : Block} {settings normal : Settings} {grouper : Grouper} {stats : Statistics}

theorem group_cheapest_ne_nil {costs : List ColumnCosts} {cols : Nat}
    (some_ : ColumnCosts.compressibleCount costs ≠ 0) :
    group costs cols settings .cheapest ≠ .ok [] := by
  intro grouped
  obtain ⟨plans, fixed, checked⟩ := bind_eq_ok grouped
  cases fixed
  obtain ⟨none_, _⟩ := ColumnPlan.checkFrom_eq_ok (mapError_eq_ok checked)
  have none_ := (List.map_eq_nil_iff.mp none_.symm)
  rw [ColumnCosts.cheapestPlans, List.map_eq_nil_iff] at none_
  rw [ColumnCosts.compressibleCount, List.countP_eq_length_filter, none_] at some_
  exact some_ rfl

theorem Classified.of_cheapest {costs : Option (List ColumnCosts)}
    (classified : Classified block settings .cheapest costs) : ∃ list, costs = some list ∧
      ColumnCosts.ofSource ⟨block, false⟩ settings = .ok list ∧
      ColumnCosts.compressibleCount list ≠ 0 := by
  obtain ⟨found, worthwhile⟩ := classified
  obtain ⟨list, sourced, rfl⟩ := map_eq_ok found
  exact ⟨list, rfl, sourced, worthwhile list rfl⟩

/-- The default grouping finds nothing to compress exactly if no column is worthwhile. -/
theorem Ends.notCompressible_iff {result : Except PackError Outcome}
    (ends : Ends block settings .cheapest ⟨result, stats⟩) :
    result = .ok (.aborted .notCompressible) ↔
      ColumnCosts.NoneWorthwhile ⟨block, false⟩ settings := by
  have classified_ : ∀ {costs}, Classified block settings .cheapest costs →
      ¬ ColumnCosts.NoneWorthwhile ⟨block, false⟩ settings := by
    intro costs classified none_
    obtain ⟨list, rfl, sourced, some_⟩ := classified.of_cheapest
    exact some_ ((ColumnCosts.compressibleCount_eq_zero_iff sourced).mpr none_)
  have reached_ : ∀ {plans}, Reached block settings .cheapest plans →
      ¬ ColumnCosts.NoneWorthwhile ⟨block, false⟩ settings := by
    intro plans reached
    obtain ⟨costs, classified, _⟩ := reached.grouped
    exact classified_ classified
  cases ends with
  | classifyFails failed =>
    refine iff_of_false (fun same => by cases same) fun none_ => ?_
    obtain ⟨costs, found⟩ := exists_mapM_iff.mpr fun col member =>
      (none_ col (List.mem_range.mp member)).imp fun _ => And.left
    rw [classify_cheapest, show ColumnCosts.ofSource ⟨block, false⟩ settings = .ok costs from found]
      at failed
    cases failed
  | incompressible classified none_ =>
    obtain ⟨list, sourced, same⟩ := map_eq_ok classified
    cases same
    exact iff_of_true rfl ((ColumnCosts.compressibleCount_eq_zero_iff sourced).mp none_)
  | groupFails classified => exact iff_of_false (fun same => by cases same) (classified_ classified)
  | noPlans classified grouped =>
    obtain ⟨list, rfl, _, some_⟩ := classified.of_cheapest
    exact absurd grouped (group_cheapest_ne_nil some_)
  | buildFails reached => exact iff_of_false (fun same => by cases same) (reached_ reached)
  | estimateFails reached => exact iff_of_false (fun same => by cases same) (reached_ reached)
  | assembleFails built => exact iff_of_false (fun same => by cases same) (reached_ built.reached)
  | notBeneficial built => exact iff_of_false (fun same => by cases same) (reached_ built.reached)
  | compressed built => exact iff_of_false (fun same => by cases same) (reached_ built.reached)

theorem Reached.exists_worthwhile {plans : List ColumnPlan}
    (reached : Reached block settings .cheapest plans) : ∃ col costs, col < block.cols ∧
      ColumnCosts.ofColumns ⟨block, false⟩ settings [col] = .ok costs ∧
      costs.best.size < costs.uncompressedSize := by
  obtain ⟨_, classified, _⟩ := reached.grouped
  obtain ⟨list, _, sourced, some_⟩ := classified.of_cheapest
  obtain ⟨costs, member, compressible⟩ := List.countP_pos_iff.mp (Nat.pos_of_ne_zero some_)
  obtain ⟨col, inside, found⟩ := exists_of_mem_mapM sourced member
  exact ⟨col, costs, List.mem_range.mp inside, found, of_decide_eq_true compressible⟩

theorem Ends.inputSize_eq {attempt : Attempt} (ends : Ends block settings grouper attempt) :
    attempt.stats.inputSize = block.size := by
  cases ends with
  | classifyFails _ unset => exact unset.input
  | incompressible _ _ unset => exact unset.input
  | groupFails _ _ unset => exact unset.input
  | noPlans _ _ unset => exact unset.input
  | buildFails _ _ unset => exact unset.input
  | estimateFails _ _ unset => exact unset.input
  | assembleFails _ _ unset => exact unset.input
  | notBeneficial _ _ _ unset => exact unset.input
  | compressed _ _ _ unset =>
    rw [foldl_recordGroup]
    exact unset.input

theorem Ends.describes {packed : Packed}
    (ends : Ends block settings grouper ⟨.ok (.compressed packed), stats⟩) :
    stats.abort = none ∧ stats.Describes packed := by
  cases ends with
  | compressed built assembled small unset =>
    refine ⟨?_, Statistics.describes_recordGroups unset small⟩
    rw [foldl_recordGroup]
    exact unset.abort

/-- What a call reports describes the compressed matrix that it gives, or else says why the input
is handed back and that it is untouched. The default grouping gives up in advance exactly if no
column takes less space in an enabled encoding than as a copy (and there are the workers to find
out), and afterwards only if some column does and the matrix that was built is no smaller than the
input. -/
theorem compressWith_coherent {threads : Threads} {matrix : Matrix}
    (h : compressWith block settings grouper threads = .ok (matrix, stats)) :
    stats.inputSize = block.size ∧ (matrix.isPacked = true ↔ stats.abort = none) ∧
    (∀ packed, matrix = .packed packed → stats.Describes packed) ∧
    (∀ plain, matrix = .plain plain → plain = block ∧ stats.Untouched) ∧
    (grouper = .cheapest → ∃ normal, settings.normalize = .ok normal ∧
      (threads.Serves settings.parallelism → (stats.abort = some .notCompressible ↔
        ColumnCosts.NoneWorthwhile ⟨block, false⟩ normal)) ∧
      (stats.abort = some .notBeneficial →
        (∃ col costs, col < block.cols ∧
          ColumnCosts.ofColumns ⟨block, false⟩ normal [col] = .ok costs ∧
          costs.best.size < costs.uncompressedSize) ∧
        ∃ plans groups built, Built block normal .cheapest plans groups ∧
          assemble block groups = .ok built ∧ block.size ≤ built.size)) := by
  obtain ⟨normal, ranged, ⟨result, before, ends, given⟩ | ⟨unserved, rfl, text, rfl⟩⟩ :=
    ends_of_compressWith h
  · have input := ends.inputSize_eq
    rcases given with ⟨packed, rfl, rfl, rfl⟩ | ⟨reason, rfl, rfl, ended⟩
    · obtain ⟨none_, described⟩ := ends.describes
      refine ⟨input, iff_of_true rfl none_, ?_, ?_, ?_⟩
      · rintro other ⟨⟩
        exact described
      · rintro plain ⟨⟩
      · rintro rfl
        refine ⟨normal, ranged, fun _ => ?_, ?_⟩
        · rw [← ends.notCompressible_iff, none_]
          simp
        · rw [none_]
          rintro ⟨⟩
    · refine ⟨input, by simp [Matrix.isPacked, Statistics.withAbort], ?_, ?_, ?_⟩
      · rintro other ⟨⟩
      · rintro plain ⟨⟩
        exact ⟨rfl, before.untouched_withAbort reason⟩
      · rintro rfl
        refine ⟨normal, ranged, fun _ => ?_, fun aborted => ?_⟩
        · rw [← ends.notCompressible_iff]
          rcases ended with rfl | ⟨error, text, rfl, rfl⟩ <;> simp [Statistics.withAbort]
        · obtain rfl : reason = .notBeneficial := Option.some.inj aborted
          rcases ended with rfl | ⟨_, _, _, same⟩
          · cases ends with
            | notBeneficial built assembled large =>
              exact ⟨built.reached.exists_worthwhile, _, _, _, built, assembled, large⟩
          · cases same
  · refine ⟨rfl, by simp [Matrix.isPacked, Statistics.withAbort], ?_, ?_, ?_⟩
    · rintro other ⟨⟩
    · rintro plain ⟨⟩
      exact ⟨rfl, Statistics.untouched_withAbort _ _⟩
    · rintro rfl
      refine ⟨normal, ranged, fun serves => absurd serves unserved, ?_⟩
      rintro ⟨⟩

/-- Each column of the block in a group of its own. -/
def halfEmptyColumns : Packed where
  rows := 4
  cols := 2
  groups := [⟨[0], 4, .const ⟨#[⟨0x3ff0000000000000⟩], 1⟩⟩, ⟨[1], 4, .empty⟩]
  owners := #[0, 1]

theorem ofSource_halfEmpty : ∃ costs, ColumnCosts.ofSource ⟨halfEmpty, false⟩ {} = .ok costs ∧
    ColumnCosts.compressibleCount costs = 2 ∧
    ColumnCosts.cheapestPlans costs = [⟨[0], .ddc⟩, ⟨[1], .ddc⟩] := by
  obtain ⟨first, second⟩ := extract_halfEmpty false
  have each : ∀ col ∈ [0, 1], ColumnCosts.ofColumns (.oriented halfEmpty false) {} [col] =
      .ok (ColumnCosts.ofProfile [col] (.ofBitmap
        (if col = 0 then ⟨1, #[⟨0x3ff0000000000000⟩], [[0, 1, 2, 3]]⟩ else ⟨1, #[], []⟩) 4 65535)
        {}) := by
    simp only [List.forall_mem_cons, List.not_mem_nil, false_implies, implies_true, and_true,
      ColumnCosts.ofColumns, first, second]
    exact ⟨rfl, rfl⟩
  refine ⟨_, mapM_eq_ok each, ?_, ?_⟩
  · decide +kernel
  · decide +kernel

theorem compress_halfEmpty : ∀ threads : Threads, threads.Serves 1 → ∃ stats,
    compress halfEmpty {} threads = .ok (.packed halfEmptyColumns, stats) := by
  have ranged : ({} : Settings).normalize = .ok {} := by decide +kernel
  obtain ⟨costs, sourced, some_, planned⟩ := ofSource_halfEmpty
  have sorted : ∀ col : Nat, [col].mergeSort = [col] := fun col => by simp
  have grouped : group costs 2 {} .cheapest = .ok [⟨[0], .ddc⟩, ⟨[1], .ddc⟩] := by
    simp only [group, Grouper.cheapest, bind, Except.bind, planned, ColumnPlan.validate,
      ColumnPlan.checkFrom, sorted]
    decide
  have reached : Reached halfEmpty {} .cheapest [⟨[0], .ddc⟩, ⟨[1], .ddc⟩] := by
    refine ⟨⟨some costs, ⟨?_, ?_⟩, grouped⟩, by simp⟩
    · rw [classify_cheapest, sourced]
      rfl
    · rintro list ⟨⟩
      rw [some_]
      decide
  obtain ⟨first, second⟩ := ofColumns_halfEmpty true .ddc {}
  have built : Group.ofPlans (.oriented halfEmpty true) {} [⟨[0], .ddc⟩, ⟨[1], .ddc⟩] =
      .ok halfEmptyColumns.groups := by
    simp only [Group.ofPlans, Pool.collect_caller, List.mapM_cons, List.mapM_nil, Group.ofPlan,
      List.length_singleton, first, second]
    rfl
  have turned : ({} : Settings).shouldTranspose halfEmpty.rows halfEmpty.cols 2 = true := rfl
  refine fun threads serves => ⟨_, compressWith_of_compressed ranged serves ?_⟩
  rw [run_of_reached reached]
  unfold build
  simp only [Block.transposeOn_eq, Source.oriented_def]
  simp only [List.length_cons, List.length_nil, turned, built]
  decide +kernel

/-- A block of 136 bytes ends up in two groups. -/
theorem compressWith_coherent_halfEmpty : ∃ stats,
    compressWith halfEmpty {} .cheapest = .ok (.packed halfEmptyColumns, stats) ∧
      stats.inputSize = 136 ∧ stats.compressedSize = 120 ∧ stats.groups = 2 ∧
      (Encoding.const, 1) ∈ stats.groupTypes ∧ (Encoding.empty, 1) ∈ stats.groupTypes ∧
      stats.abort = none := by
  obtain ⟨stats, made⟩ := compress_halfEmpty .caller (Threads.serves_caller 1)
  obtain ⟨input, completed, described, _, _⟩ := compressWith_coherent made
  obtain ⟨small, _, groups, _, _, counted⟩ := described _ rfl
  refine ⟨stats, made, input, ?_, groups, ?_, ?_, completed.mp rfl⟩
  · rw [small]
    decide +kernel
  · exact (counted _ _).mpr (by decide)
  · exact (counted _ _).mpr (by decide)

end Compressor

end PackedMatrix
