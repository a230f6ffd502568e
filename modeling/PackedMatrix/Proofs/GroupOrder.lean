import Mathlib.Data.List.Nodup
import PackedMatrix.Proofs.AcceptedReads
import PackedMatrix.Proofs.Cover

namespace PackedMatrix

namespace Packed

variable {rows cols : Nat} {groups : List Group} {packed reordered : Packed}

/-- Groups list all columns once exactly if they stay inside and each column is in one of them. -/
theorem perm_range_iff (distinct : ∀ group ∈ groups, group.columns.Nodup) :
    (groups.flatMap Group.columns).Perm (List.range cols) ↔
      (∀ group ∈ groups, ∀ col ∈ group.columns, col < cols) ∧
      ∀ col, col < cols → ∃! place : Nat, ∃ group : Group,
        groups[place]? = some group ∧ col ∈ group.columns := by
  constructor
  · intro perm
    have apart := (List.nodup_flatMap.mp (perm.nodup_iff.mpr List.nodup_range)).2
    refine ⟨fun group member col here => ?_, fun col inside => ?_⟩
    · exact List.mem_range.mp (perm.mem_iff.mp (List.mem_flatMap.mpr ⟨group, member, here⟩))
    · obtain ⟨group, member, here⟩ :=
        List.mem_flatMap.mp (perm.mem_iff.mpr (List.mem_range.mpr inside))
      obtain ⟨place, found⟩ := List.mem_iff_getElem?.mp member
      refine ⟨place, ⟨group, found, here⟩, ?_⟩
      rintro other ⟨second, found', here'⟩
      obtain ⟨bound, rfl⟩ := List.getElem?_eq_some_iff.mp found
      obtain ⟨bound', rfl⟩ := List.getElem?_eq_some_iff.mp found'
      rcases Nat.lt_trichotomy other place with before | same | behind
      · exact absurd here (List.pairwise_iff_getElem.mp apart _ _ bound' bound before here')
      · exact same
      · exact absurd here' (List.pairwise_iff_getElem.mp apart _ _ bound bound' behind here)
  · rintro ⟨inside, owned⟩
    have apart : groups.Pairwise (Function.onFun List.Disjoint Group.columns) := by
      refine List.pairwise_iff_getElem.mpr fun i j first second order col here there => ?_
      obtain ⟨_, _, unique⟩ := owned col (inside _ (List.getElem_mem first) col here)
      have left := unique i ⟨_, List.getElem?_eq_getElem first, here⟩
      have right := unique j ⟨_, List.getElem?_eq_getElem second, there⟩
      omega
    refine (List.perm_ext_iff_of_nodup (List.nodup_flatMap.mpr ⟨distinct, apart⟩)
      List.nodup_range).mpr fun col => ?_
    rw [List.mem_flatMap, List.mem_range]
    constructor
    · rintro ⟨group, member, here⟩
      exact inside group member col here
    · intro within
      obtain ⟨place, ⟨group, found, here⟩, _⟩ := owned col within
      exact ⟨group, List.mem_of_getElem? found, here⟩

/-- Valid groups with the rows of the matrix that list all columns once are what it takes. -/
theorem exists_ofGroups_iff : (∃ packed, ofGroups rows cols groups = .ok packed) ↔
    (∀ group ∈ groups, group.validate = .ok () ∧ group.rows = rows) ∧
      (groups.flatMap Group.columns).Perm (List.range cols) := by
  constructor
  · rintro ⟨packed, made⟩
    obtain ⟨rfl, rfl, rfl⟩ := fields_of_ofGroups made
    have covered := covered_of_ofGroups made
    exact ⟨fun group member => ⟨covered.valid group member, covered.rows group member⟩,
      covered.columns⟩
  · rintro ⟨fit, columns⟩
    exact exists_ofGroups fit columns

namespace Covered

theorem owner_unique (covered : packed.Covered) {col : Nat} {group other : Group}
    (member : group ∈ packed.groups) (here : col ∈ group.columns)
    (member' : other ∈ packed.groups) (here' : col ∈ other.columns) : group = other := by
  obtain ⟨place, found⟩ := List.mem_iff_getElem?.mp member
  obtain ⟨place', found'⟩ := List.mem_iff_getElem?.mp member'
  have first := covered.owner place group found col here
  rw [covered.owner place' other found' col here'] at first
  obtain rfl : place' = place := Option.some.inj first
  exact Option.some.inj (found.symm.trans found')

theorem groupOf?_eq_some_iff (covered : packed.Covered) {col : Nat} (inside : col < packed.cols)
    {group : Group} : packed.groupOf? col = some group ↔
      group ∈ packed.groups ∧ col ∈ group.columns := by
  obtain ⟨owner, member, here, found⟩ := covered.groupOf?_eq inside
  rw [found]
  constructor
  · rintro ⟨⟩
    exact ⟨member, here⟩
  · rintro ⟨member', here'⟩
    rw [covered.owner_unique member here member' here']

section Reordered

variable (covered : packed.Covered) (covered' : reordered.Covered)
  (width : reordered.cols = packed.cols) (perm : reordered.groups.Perm packed.groups)

include covered covered' width perm

theorem groupOf?_of_perm (col : Nat) : reordered.groupOf? col = packed.groupOf? col := by
  by_cases inside : col < packed.cols
  · have inside' : col < reordered.cols := by rwa [width]
    refine Option.ext fun group => ?_
    rw [covered.groupOf?_eq_some_iff inside, covered'.groupOf?_eq_some_iff inside', perm.mem_iff]
  · have outside' : reordered.cols ≤ col := by omega
    rw [covered.groupOf?_eq_none (Nat.le_of_not_lt inside), covered'.groupOf?_eq_none outside']

theorem get?_of_perm (row col : Nat) : reordered.get? row col = packed.get? row col := by
  rw [get?, get?, groupOf?_of_perm covered covered' width perm]

end Reordered

/-- Writing groups one after the other carries out the writes of each. -/
theorem foldlM_decompressInto_eq {writes : Group → List (Nat × Cell)} {size : Nat}
    (written : ∀ group ∈ groups, ∀ buffer : Array Cell, buffer.size = size →
      group.decompressInto cols buffer =
        .ok ((writes group).foldl (fun cells write => cells.setIfInBounds write.1 write.2) buffer))
    {buffer : Array Cell} (full : buffer.size = size) :
    groups.foldlM (fun cells group => group.decompressInto cols cells) buffer =
      .ok (groups.foldl (fun cells group => (writes group).foldl
        (fun cells write => cells.setIfInBounds write.1 write.2) cells) buffer) := by
  induction groups generalizing buffer with
  | nil => rfl
  | cons group rest ih =>
    rw [List.foldlM_cons, written group (by simp) buffer full, List.foldl_cons]
    exact ih (fun other member => written other (List.mem_cons_of_mem _ member))
      (by rw [Writes.size_foldl, full])

/-- Whatever the order in which the groups are written, the same cells come out. -/
theorem decompress_of_perm (covered : packed.Covered) (height : reordered.rows = packed.rows)
    (width : reordered.cols = packed.cols) (perm : reordered.groups.Perm packed.groups) :
    ∃ block, packed.decompress = .ok block ∧ reordered.decompress = .ok block := by
  have each : ∀ group, ∃ writes : List (Nat × Cell), group ∈ packed.groups →
      (∀ buffer : Array Cell, buffer.size = packed.rows * packed.cols →
        group.decompressInto packed.cols buffer =
          .ok (writes.foldl (fun cells write => cells.setIfInBounds write.1 write.2) buffer)) ∧
      ∀ write ∈ writes, ∃ row col, col ∈ group.columns ∧ write.1 = row * packed.cols + col := by
    intro group
    by_cases member : group ∈ packed.groups
    · have accepted := Group.validate_eq_ok_iff.mp (covered.valid group member)
      obtain ⟨writes, written, places⟩ :=
        accepted.exists_writes fun col here => covered.column_lt member here
      rw [covered.rows group member] at written
      refine ⟨writes, fun _ => ⟨written, fun write listed => ?_⟩⟩
      obtain ⟨row, col, _, here, position⟩ := places write listed
      exact ⟨row, col, here, position⟩
    · exact ⟨[], fun listed => absurd listed member⟩
  choose writes spec using each
  have full := Array.size_replicate (n := packed.rows * packed.cols) (v := Cell.zero)
  have run := foldlM_decompressInto_eq (fun group member => (spec group member).1) full
  have run' := foldlM_decompressInto_eq
    (fun group member => (spec group (perm.mem_iff.mp member)).1) full
  have same := perm.symm.foldl_eq' (f := fun cells group => (writes group).foldl
      (fun cells write => cells.setIfInBounds write.1 write.2) cells) (by
    intro group member other member' buffer
    by_cases equal : group = other
    · rw [equal]
    · refine Writes.foldl_comm (fun a listed b listed' meet => equal ?_) buffer
      obtain ⟨row, col, here, position⟩ := (spec group member).2 a listed
      obtain ⟨row', col', here', position'⟩ := (spec other member').2 b listed'
      obtain ⟨_, rfl⟩ := Block.position_inj (covered.column_lt member here)
        (covered.column_lt member' here') (position.symm.trans (meet.trans position'))
      exact covered.owner_unique member here member' here')
    (Array.replicate (packed.rows * packed.cols) Cell.zero)
  refine ⟨_, by rw [decompress, run]; rfl, ?_⟩
  rw [decompress, height, width, run', same]
  rfl

end Covered

/-- Groups make up a matrix exactly if they are valid, have its rows and part its columns. In the
matrix every column has its only group as owner. Groups in any other order make up a matrix, too,
with the same answer to every read. -/
theorem ofGroups_partitions_columns (rows cols : Nat) (groups : List Group) :
    ((∃ packed, ofGroups rows cols groups = .ok packed) ↔
      (∀ group ∈ groups, group.validate = .ok ()) ∧ (∀ group ∈ groups, group.rows = rows) ∧
        (∀ group ∈ groups, ∀ col ∈ group.columns, col < cols) ∧
        ∀ col, col < cols → ∃! place : Nat, ∃ group : Group,
          groups[place]? = some group ∧ col ∈ group.columns) ∧
    ∀ packed, ofGroups rows cols groups = .ok packed →
      (∀ col, col < cols → ∃ owner, packed.groupOf? col = some owner ∧
        ∀ group, group ∈ groups ∧ col ∈ group.columns ↔ group = owner) ∧
      (∀ col, cols ≤ col → packed.groupOf? col = none) ∧
      ∀ others : List Group, others.Perm groups → ∃ reordered,
        ofGroups rows cols others = .ok reordered ∧
        (∀ row col, reordered.get? row col = packed.get? row col) ∧
        ∃ block, packed.decompress = .ok block ∧ reordered.decompress = .ok block := by
  refine ⟨?_, ?_⟩
  · rw [exists_ofGroups_iff, forall₂_and, and_assoc]
    refine and_congr_right fun valid => and_congr_right fun _ => ?_
    exact perm_range_iff fun group member =>
      Increasing.nodup (Group.columns_of_validate (valid group member)).2
  · intro packed made
    have covered := covered_of_ofGroups made
    obtain ⟨rfl, rfl, rfl⟩ := fields_of_ofGroups made
    refine ⟨fun col inside => ?_, fun col outside => covered.groupOf?_eq_none outside, ?_⟩
    · obtain ⟨owner, _, _, found⟩ := covered.groupOf?_eq inside
      refine ⟨owner, found, fun group => ?_⟩
      rw [← covered.groupOf?_eq_some_iff inside, found]
      exact ⟨fun same => (Option.some.inj same).symm, fun same => by rw [same]⟩
    · intro others perm
      obtain ⟨fit, columns⟩ := exists_ofGroups_iff.mp ⟨packed, made⟩
      obtain ⟨reordered, made'⟩ := exists_ofGroups_iff.mpr
        ⟨fun group member => fit group (perm.mem_iff.mp member),
          (perm.flatMap_right Group.columns).trans columns⟩
      have covered' := covered_of_ofGroups made'
      obtain ⟨height, width, rfl⟩ := fields_of_ofGroups made'
      exact ⟨reordered, made', covered.get?_of_perm covered' width perm,
        covered.decompress_of_perm height width perm⟩

/-- Two columns of constants around one whose rows are listed in blocks. -/
def interleaved : List Group :=
  [⟨[0, 2], 2, .const ⟨#[⟨7⟩, ⟨9⟩], 2⟩⟩,
    ⟨[1], 2, .ole ⟨#[⟨1⟩], 1⟩ ⟨4, ⟨#[0, 3], #[2, 0, 1]⟩⟩⟩]

theorem ofGroups_partitions_columns_interleaved : ∃ packed reordered,
    ofGroups 2 3 interleaved = .ok packed ∧ interleaved.reverse.Perm interleaved ∧
      ofGroups 2 3 interleaved.reverse = .ok reordered ∧
      (∃ owner, packed.groupOf? 1 = some owner ∧ owner.encoding = .ole) ∧
      packed.groupOf? 3 = none ∧ reordered.get? 1 2 = packed.get? 1 2 ∧
      reordered.decompress = packed.decompress := by
  have made : ofGroups 2 3 interleaved = .ok ⟨2, 3, interleaved, #[0, 1, 0]⟩ := by decide +kernel
  obtain ⟨owners, outside, others⟩ :=
    (ofGroups_partitions_columns 2 3 interleaved).2 _ made
  obtain ⟨owner, found, only⟩ := owners 1 (by decide)
  have named := (only ⟨[1], 2, .ole ⟨#[⟨1⟩], 1⟩ ⟨4, ⟨#[0, 3], #[2, 0, 1]⟩⟩⟩).mp (by decide)
  obtain ⟨reordered, made', same, block, written, written'⟩ :=
    others interleaved.reverse (List.reverse_perm interleaved)
  exact ⟨_, reordered, made, List.reverse_perm interleaved, made',
    ⟨owner, found, by rw [← named]; rfl⟩, outside 3 (by decide), same 1 2,
    written'.trans written.symm⟩

end Packed

end PackedMatrix
