import PackedMatrix.Proofs.CodeMapReads
import PackedMatrix.Proofs.DisjointMerges

namespace PackedMatrix

namespace Merger

/-- No head is less than the claim, and the heads in front of it are greater. -/
structure Leads (claim : Claim) (before after : List (List Claim)) : Prop where
  front : ∀ list ∈ before, ∀ other ∈ list.head?, claim.row < other.row
  back : ∀ list ∈ after, ∀ other ∈ list.head?, claim.row ≤ other.row

/-- The least head always goes first, and the earliest list wins a tie. -/
inductive Played : List (List Claim) → List Claim → Prop
  | ended {lists : List (List Claim)} (done : ∀ list ∈ lists, list = []) : Played lists []
  | turn {before after : List (List Claim)} {claim : Claim} {rest merged : List Claim}
      (leads : Leads claim before after) (next : Played (before ++ rest :: after) merged) :
      Played (before ++ (claim :: rest) :: after) (claim :: merged)

theorem merge_of_leads_back {claim : Claim} {rest list : List Claim}
    (least : ∀ other ∈ list.head?, claim.row ≤ other.row) :
    (claim :: rest).merge list (fun x y => decide (x.row ≤ y.row)) =
      claim :: rest.merge list (fun x y => decide (x.row ≤ y.row)) := by
  cases list with
  | nil => simp
  | cons other others => simp [least other rfl]

theorem merge_of_leads_front {claim : Claim} {rest list : List Claim}
    (less : ∀ other ∈ list.head?, claim.row < other.row) :
    list.merge (claim :: rest) (fun x y => decide (x.row ≤ y.row)) =
      claim :: list.merge rest (fun x y => decide (x.row ≤ y.row)) := by
  cases list with
  | nil => simp
  | cons other others => simp [less other rfl]

/-- The heads after a round of merging neighbours were heads before it. -/
theorem head_mergePairs {lists : List (List Claim)} {list : List Claim}
    (member : list ∈ mergePairs lists) {claim : Claim} (head : claim ∈ list.head?) :
    ∃ old ∈ lists, claim ∈ old.head? := by
  fun_induction mergePairs lists with
  | case1 a b rest ih =>
    rcases List.mem_cons.mp member with rfl | later
    · cases a with
      | nil => exact ⟨b, by simp, by simpa using head⟩
      | cons x xs =>
        cases b with
        | nil => exact ⟨x :: xs, by simp, by simpa using head⟩
        | cons y ys =>
          rw [List.cons_merge_cons] at head
          split at head
          next => exact ⟨x :: xs, by simp, by simpa using head⟩
          next => exact ⟨y :: ys, by simp, by simpa using head⟩
    · obtain ⟨old, listed, here⟩ := ih later
      exact ⟨old, by simp [listed], here⟩
  | case2 lists short => exact ⟨list, member, head⟩

/-- A round of merging neighbours keeps the leading claim, and takes it away with its list. -/
theorem mergePairs_turn {claim : Claim} {rest : List Claim} {before after : List (List Claim)}
    (leads : Leads claim before after) : ∃ before' rest' after', Leads claim before' after' ∧
      mergePairs (before ++ (claim :: rest) :: after) = before' ++ (claim :: rest') :: after' ∧
      mergePairs (before ++ rest :: after) = before' ++ rest' :: after' := by
  have heads : ∀ more : List (List Claim),
      (∀ list ∈ more, ∀ other ∈ list.head?, claim.row ≤ other.row) →
      ∀ list ∈ mergePairs more, ∀ other ∈ list.head?, claim.row ≤ other.row := by
    intro more bound list member other head
    obtain ⟨old, listed, here⟩ := head_mergePairs member head
    exact bound old listed other here
  induction before using List.twoStepInduction with
  | nil =>
    cases after with
    | nil => exact ⟨[], rest, [], leads, rfl, rfl⟩
    | cons list more =>
      have least := leads.back list (by simp)
      refine ⟨[], rest.merge list (fun x y => decide (x.row ≤ y.row)), mergePairs more,
        ⟨by simp, heads more fun other listed => leads.back other (by simp [listed])⟩, ?_, rfl⟩
      simp only [List.nil_append, mergePairs, merge_of_leads_back least]
  | singleton list =>
    have less := leads.front list (by simp)
    refine ⟨[], list.merge rest (fun x y => decide (x.row ≤ y.row)), mergePairs after,
      ⟨by simp, heads after leads.back⟩, ?_, rfl⟩
    simp only [List.singleton_append, mergePairs, merge_of_leads_front less, List.nil_append]
  | cons_cons first second before ih _ =>
    obtain ⟨before', rest', after', leads', taken, left⟩ :=
      ih ⟨fun list member => leads.front list (by simp [member]), leads.back⟩
    refine ⟨first.merge second (fun x y => decide (x.row ≤ y.row)) :: before', rest', after',
      ⟨?_, leads'.back⟩, ?_, ?_⟩
    · refine List.forall_mem_cons.mpr ⟨fun other head => ?_, leads'.front⟩
      have pair : first.merge second (fun x y => decide (x.row ≤ y.row)) ∈
          mergePairs [first, second] := by simp [mergePairs]
      obtain ⟨old, listed, here⟩ := head_mergePairs pair head
      refine leads.front old ?_ other here
      simp only [List.mem_cons, List.not_mem_nil, or_false] at listed
      rcases listed with rfl | rfl <;> simp
    · simp only [List.cons_append, mergePairs, taken]
    · simp only [List.cons_append, mergePairs, left]

theorem mergeHeads_mergePairs {lists : List (List Claim)} (several : 2 ≤ lists.length) :
    mergeHeads lists = mergeHeads (mergePairs lists) := by
  match lists, several with
  | a :: b :: rest, _ => rw [mergeHeads]

/-- The leading claim goes first, and what is left is merged. -/
theorem mergeHeads_turn {claim : Claim} {rest : List Claim} {before after : List (List Claim)}
    (leads : Leads claim before after) :
    mergeHeads (before ++ (claim :: rest) :: after) =
      claim :: mergeHeads (before ++ rest :: after) := by
  induction counted : (before ++ rest :: after).length using Nat.strongRecOn
    generalizing before rest after with
  | ind count ih =>
    by_cases several : 2 ≤ count
    · have alike : (before ++ (claim :: rest) :: after).length = count := by
        rw [← counted]
        simp
      obtain ⟨before', rest', after', leads', taken, left⟩ :=
        @mergePairs_turn claim rest before after leads
      have fewer : (before' ++ rest' :: after').length < count := by
        rw [← left, length_mergePairs, counted]
        omega
      have whole := mergeHeads_mergePairs (Nat.le_trans several (Nat.le_of_eq alike.symm))
      have others := mergeHeads_mergePairs (Nat.le_trans several (Nat.le_of_eq counted.symm))
      rw [whole, others, taken, left]
      exact ih _ fewer leads' rfl
    · simp only [List.length_append, List.length_cons] at counted
      obtain rfl : before = [] := List.length_eq_zero_iff.mp (by omega)
      obtain rfl : after = [] := List.length_eq_zero_iff.mp (by omega)
      simp [mergeHeads]

theorem mergeHeads_of_done {lists : List (List Claim)} (done : ∀ list ∈ lists, list = []) :
    mergeHeads lists = [] := by
  refine List.eq_nil_iff_forall_not_mem.mpr fun claim member => ?_
  obtain ⟨list, listed, inside⟩ := List.mem_flatten.mp (mem_mergeHeads.mp member)
  rw [done list listed] at inside
  cases inside

/-- Some claim leads as long as one is left. -/
theorem exists_leads {lists : List (List Claim)} (open_ : ¬ ∀ list ∈ lists, list = []) :
    ∃ before claim rest after, lists = before ++ (claim :: rest) :: after ∧
      Leads claim before after := by
  induction lists with
  | nil => exact absurd (by simp) open_
  | cons list lists ih =>
    by_cases done : ∀ list ∈ lists, list = []
    · cases list with
      | nil => exact absurd (by simpa using done) open_
      | cons claim rest =>
        refine ⟨[], claim, rest, lists, rfl, by simp, fun other listed head here => ?_⟩
        rw [done other listed] at here
        cases here
    · obtain ⟨before, claim, rest, after, rfl, leads⟩ := ih done
      by_cases first : ∃ other ∈ list.head?, other.row ≤ claim.row
      · obtain ⟨other, head, less⟩ := first
        cases list with
        | nil => cases head
        | cons leader others =>
          cases head
          refine ⟨[], other, others, _, rfl, by simp, ?_⟩
          intro list member next here
          rcases List.mem_append.mp member with front | back
          · exact Nat.le_of_lt (Nat.lt_of_le_of_lt less (leads.front list front next here))
          · rcases List.mem_cons.mp back with rfl | later
            · cases here
              exact less
            · exact Nat.le_trans less (leads.back list later next here)
      · refine ⟨list :: before, claim, rest, after, rfl, ?_, leads.back⟩
        refine List.forall_mem_cons.mpr ⟨fun other head => ?_, leads.front⟩
        exact Nat.lt_of_not_le fun less => first ⟨other, head, less⟩

/-- Merging by heads gives the claims in the order of play, whether or not the lists increase. -/
theorem played_iff {lists : List (List Claim)} {merged : List Claim} :
    Played lists merged ↔ mergeHeads lists = merged := by
  constructor
  · intro played
    induction played with
    | ended done => exact mergeHeads_of_done done
    | turn leads _ ih => rw [mergeHeads_turn leads, ih]
  · rintro rfl
    induction counted : lists.flatten.length using Nat.strongRecOn generalizing lists with
    | ind count ih =>
      by_cases done : ∀ list ∈ lists, list = []
      · rw [mergeHeads_of_done done]
        exact .ended done
      · obtain ⟨before, claim, rest, after, rfl, leads⟩ := exists_leads done
        rw [mergeHeads_turn leads]
        refine .turn leads (ih _ ?_ rfl)
        rw [← counted]
        simp only [List.flatten_append, List.flatten_cons, List.length_append, List.length_cons]
        omega

end Merger

namespace MergedRows.Collects

variable {merged other : MergedRows} {tuples : Nat} {wanted : Nat → Nat → Prop}
  {codes others : List Nat}

theorem map_fst_zip (collects : merged.Collects tuples wanted codes) :
    (merged.rows.toList.zip codes).map Prod.fst = merged.rows.toList :=
  List.map_fst_zip (Nat.le_of_eq (Array.length_toList.trans collects.length.symm))

theorem unique (collects : merged.Collects tuples wanted codes)
    (collects' : other.Collects tuples wanted others) : merged = other := by
  have pairs : merged.rows.toList.zip codes = other.rows.toList.zip others := by
    refine Increasing.eq_of_mem_iff_of_keys ?_ ?_ ?_
    · rw [collects.map_fst_zip]
      exact collects.increasing
    · rw [collects'.map_fst_zip]
      exact collects'.increasing
    · exact fun entry => (collects.mem_iff entry.1 entry.2).trans
        (collects'.mem_iff entry.1 entry.2).symm
  have rows : merged.rows = other.rows := by
    rw [← Array.toList_inj, ← collects.map_fst_zip, pairs, collects'.map_fst_zip]
  have same : codes = others := by
    have first := List.map_snd_zip (Nat.le_of_eq (collects.length.trans Array.length_toList.symm))
    have second :=
      List.map_snd_zip (Nat.le_of_eq (collects'.length.trans Array.length_toList.symm))
    rw [← first, pairs, second]
  have stored : merged.codes = other.codes := by
    rw [collects.stored, collects'.stored, same]
  cases merged
  cases other
  cases rows
  cases stored
  rfl

theorem code_unique (collects : merged.Collects tuples wanted codes) {row a b : Nat}
    (first : wanted row a) (second : wanted row b) : a = b := by
  have order : ((merged.rows.toList.zip codes).map Prod.fst).Nodup := by
    rw [collects.map_fst_zip]
    exact Increasing.nodup collects.increasing
  exact congrArg Prod.snd (List.inj_on_of_nodup_map order ((collects.mem_iff row a).mpr first)
    ((collects.mem_iff row b).mpr second) rfl)

theorem length_codes (collects : merged.Collects tuples wanted codes) :
    merged.codes.length = merged.rows.size := by
  rw [collects.stored, CodeMap.length_ofList, collects.length]

/-- Each row is stored with the code that is wanted for it. -/
theorem exists_code (collects : merged.Collects tuples wanted codes)
    (few : tuples ≤ UInt32.size) (small : ∀ row code, wanted row code → code < tuples)
    {i row : Nat} (here : merged.rows[i]? = some row) :
    ∃ code, merged.codes.get? i = some code ∧ wanted row code := by
  obtain ⟨inside, value⟩ := Array.getElem?_eq_some_iff.mp here
  have coded : i < codes.length := by rwa [collects.length]
  have pair : ∀ j (bound : j < codes.length) (bound' : j < merged.rows.toList.length),
      (merged.rows.toList[j], codes[j]) ∈ merged.rows.toList.zip codes := by
    intro j bound bound'
    exact List.mem_iff_getElem.mpr ⟨j, by rw [List.length_zip]; omega, List.getElem_zip⟩
  have named : ∀ code ∈ codes, code < tuples := by
    intro code member
    obtain ⟨j, bound, rfl⟩ := List.mem_iff_getElem.mp member
    have bound' : j < merged.rows.toList.length := by
      rwa [Array.length_toList, ← collects.length]
    exact small _ _ ((collects.mem_iff _ _).mp (pair j bound bound'))
  refine ⟨codes[i], ?_, ?_⟩
  · rw [collects.stored, CodeMap.get?_ofList few named coded]
  · rw [← value, ← collects.mem_iff]
    exact pair i coded inside

end MergedRows.Collects

namespace Merger

section Disjoint

variable {lists : List (List Nat)} {rows : Nat} (disjoint : DisjointLists lists rows)

include disjoint

theorem exists_insert_of_both : ∃ merged codes,
    (∀ strategy, insert ⟨strategy, rows⟩ lists = .ok merged) ∧
      merged.Collects lists.length (fun row code => row ∈ lists.getD code []) codes := by
  obtain ⟨merged, made⟩ := exists_insert disjoint .heads
  obtain ⟨codes, collects⟩ := insert_eq_ok made
  refine ⟨merged, codes, fun strategy => ?_, collects⟩
  obtain ⟨other, made'⟩ := exists_insert disjoint strategy
  obtain ⟨_, collects'⟩ := insert_eq_ok made'
  rw [made', collects'.unique collects]

theorem exists_insertExcluding_of_both {excluded : Nat} (inside : excluded < lists.length) :
    ∃ merged codes, (∀ strategy, insertExcluding ⟨strategy, rows⟩ lists excluded = .ok merged) ∧
      merged.Collects lists.length (Outside lists rows excluded) codes := by
  obtain ⟨merged, made⟩ := exists_insertExcluding disjoint .heads inside
  obtain ⟨codes, collects⟩ := insertExcluding_eq_ok disjoint made
  refine ⟨merged, codes, fun strategy => ?_, collects⟩
  obtain ⟨other, made'⟩ := exists_insertExcluding disjoint strategy inside
  obtain ⟨_, collects'⟩ := insertExcluding_eq_ok disjoint made'
  rw [made', collects'.unique collects]

/-- A merge of all lists lists as many rows as they name. -/
theorem size_rows_insert {merged : MergedRows} {codes : List Nat}
    (collects : merged.Collects lists.length (fun row code => row ∈ lists.getD code []) codes) :
    merged.rows.size = total (lists.map List.length) := by
  rw [← Array.length_toList, ← Segments.length_flatten]
  refine ((List.perm_ext_iff_of_nodup (Increasing.nodup collects.increasing)
    disjoint.distinct).mpr fun row => ?_).length_eq
  exact collects.mem_rows_iff.trans DisjointLists.mem_flatten_iff.symm

end Disjoint

/-- A merge by heads plays the least head of all lists first, until no head is left. -/
theorem insert_heads_eq_ok_iff {lists : List (List Nat)} {rows : Nat} {merged : MergedRows} :
    insert ⟨.heads, rows⟩ lists = .ok merged ↔
      ∃ played, Played (claims lists) played ∧ finish lists.length played = .ok merged := by
  constructor
  · intro made
    exact ⟨_, played_iff.mpr rfl, made⟩
  · rintro ⟨played, order, made⟩
    rw [insert, played_iff.mp order, made]

/-- If the lists share no row, both strategies give the same merge: all listed rows in increasing
order, each with the number of its list, and without one list all rows outside it. If two lists
share a row, both refuse to merge them. -/
theorem strategies_agree {lists : List (List Nat)} {rows : Nat}
    (few : lists.length < maxIndex - 1) (increasing : ∀ list ∈ lists, list.Pairwise (· < ·))
    (inside : ∀ list ∈ lists, ∀ row ∈ list, row < rows) :
    (lists.Pairwise List.Disjoint →
      (∃ merged, (∀ strategy, insert ⟨strategy, rows⟩ lists = .ok merged) ∧
        merged.rows.toList.Pairwise (· < ·) ∧
        (∀ row, row ∈ merged.rows.toList ↔ ∃ list ∈ lists, row ∈ list) ∧
        merged.rows.size = total (lists.map List.length) ∧
        merged.codes.length = merged.rows.size ∧
        ∀ i row, merged.rows[i]? = some row → ∃ code, merged.codes.get? i = some code ∧
          row ∈ lists.getD code [] ∧ ∀ other, row ∈ lists.getD other [] → other = code) ∧
      ∀ excluded, excluded < lists.length →
        ∃ merged, (∀ strategy, insertExcluding ⟨strategy, rows⟩ lists excluded = .ok merged) ∧
          merged.rows.toList.Pairwise (· < ·) ∧
          ∀ row, row ∈ merged.rows.toList ↔ row < rows ∧ row ∉ lists.getD excluded []) ∧
    ∀ i j row, i ≠ j → row ∈ lists.getD i [] → row ∈ lists.getD j [] →
      ∀ strategy, ∃ error, insert ⟨strategy, rows⟩ lists = .error error := by
  constructor
  · intro apart
    have disjoint : DisjointLists lists rows := by
      refine ⟨increasing, inside, List.nodup_flatten.mpr ⟨fun list member => ?_, apart⟩⟩
      exact Increasing.nodup (increasing list member)
    have fits : lists.length ≤ UInt32.size := by
      rw [maxIndex] at few
      rw [UInt32.size]
      omega
    refine ⟨?_, fun excluded bound => ?_⟩
    · obtain ⟨merged, codes, made, collects⟩ := exists_insert_of_both disjoint
      refine ⟨merged, made, collects.increasing, fun row => ?_, size_rows_insert disjoint collects,
        collects.length_codes, fun i row here => ?_⟩
      · rw [collects.mem_rows_iff, ← DisjointLists.mem_flatten_iff, List.mem_flatten]
      · obtain ⟨code, stored, named⟩ := collects.exists_code fits
          (fun _ _ => DisjointLists.lt_of_mem) here
        exact ⟨code, stored, named, fun other listed => disjoint.unique listed named⟩
    · obtain ⟨merged, codes, made, collects⟩ := exists_insertExcluding_of_both disjoint bound
      exact ⟨merged, made, collects.increasing, fun row =>
        collects.mem_rows_iff.trans (exists_outside_iff disjoint)⟩
  · intro i j row differs first second strategy
    cases made : insert ⟨strategy, rows⟩ lists with
    | error error => exact ⟨error, rfl⟩
    | ok merged =>
      obtain ⟨codes, collects⟩ := insert_eq_ok made
      exact absurd (collects.code_unique first second) differs

theorem strategies_agree_emptyList :
    (∀ strategy, insert ⟨strategy, 6⟩ [[1, 4], [], [0, 2]] =
        .ok ⟨#[0, 1, 2, 4], .byte #[2, 0, 2, 0]⟩) ∧
      (∀ strategy, insertExcluding ⟨strategy, 6⟩ [[1, 4], [], [0, 2]] 0 =
        .ok ⟨#[0, 2, 3, 5], .byte #[1, 1, 2, 2]⟩) ∧
      ∀ strategy, ∃ error, insert ⟨strategy, 6⟩ [[1, 4], [0, 4]] = .error error := by
  obtain ⟨apart, _⟩ :=
    @strategies_agree [[1, 4], [], [0, 2]] 6 (by decide) (by decide) (by decide)
  obtain ⟨⟨merged, made, _⟩, without⟩ := apart (by simp)
  obtain ⟨others, excluding, _⟩ := without 0 (by decide)
  obtain ⟨_, shared⟩ := @strategies_agree [[1, 4], [0, 4]] 6 (by decide) (by decide) (by decide)
  have all : insert ⟨.slots, 6⟩ [[1, 4], [], [0, 2]] =
      .ok ⟨#[0, 1, 2, 4], .byte #[2, 0, 2, 0]⟩ := by decide +kernel
  have outside : insertExcluding ⟨.slots, 6⟩ [[1, 4], [], [0, 2]] 0 =
      .ok ⟨#[0, 2, 3, 5], .byte #[1, 1, 2, 2]⟩ := by decide +kernel
  obtain rfl := Except.ok.inj ((made .slots).symm.trans all)
  obtain rfl := Except.ok.inj ((excluding .slots).symm.trans outside)
  exact ⟨made, excluding, shared 0 1 4 (by decide) (by decide) (by decide)⟩

end Merger

end PackedMatrix
