import PackedMatrix.Archive
import PackedMatrix.Proofs.Cover
import PackedMatrix.Proofs.GroupBytes
import PackedMatrix.Proofs.HeaderBytes

namespace PackedMatrix

/-- Unpacking gives back the bytes that were packed, whatever group they belong to. -/
def Packers.Restores (packers : Packers) (codec : Codec) (bytes : List UInt8) : Prop :=
  ∀ group, codec.unpack packers group (codec.pack packers bytes) = .ok bytes

/-- The numbers of a matrix and of its groups are 64-bit numbers. -/
structure Packed.Storable (packed : Packed) : Prop where
  rows : packed.rows < UInt64.size
  cols : packed.cols < UInt64.size
  groups : ∀ group ∈ packed.groups, group.Storable

namespace Archive

variable {packers : Packers} {codec : Codec}

theorem readGroup_payload {group : Group} (storable : group.Storable)
    (restores : packers.Restores codec group.toBytes) (index : Nat) (rest : List UInt8) :
    readGroup packers codec index (entry group (codec.pack packers group.toBytes))
      (codec.pack packers group.toBytes ++ rest) = .ok (group, rest) := by
  have unpacked := restores index
  have decoded := Group.ofBytes_toBytes storable
  simp only [readGroup, entry, Header.split_append, mapError_ok, unpacked, decoded, bind,
    Except.bind, ne_eq, not_true_eq_false, ↓reduceIte, pure, Except.pure]

theorem readGroups_payloads {groups : List Group} (storable : ∀ group ∈ groups, group.Storable)
    (restores : ∀ group ∈ groups, packers.Restores codec group.toBytes) (index : Nat)
    (rest : List UInt8) :
    readGroups packers codec index
      (groups.map fun group => entry group (codec.pack packers group.toBytes))
      (groups.flatMap (fun group => codec.pack packers group.toBytes) ++ rest) =
        .ok (groups, rest) := by
  induction groups generalizing index with
  | nil => rfl
  | cons group others ih =>
    have one := readGroup_payload (storable group (by simp)) (restores group (by simp)) index
      (others.flatMap (fun group => codec.pack packers group.toBytes) ++ rest)
    have more := ih (fun group member => storable group (List.mem_cons_of_mem _ member))
      (fun group member => restores group (List.mem_cons_of_mem _ member)) (index + 1)
    simp only [List.map_cons, List.flatMap_cons, List.append_assoc, readGroups, one, more, bind,
      Except.bind, pure, Except.pure]

theorem groups_header (packed : Packed) (codec : Codec) (created : Timestamp) :
    (header packed codec created (payloads packers packed codec)).groups =
      packed.groups.map fun group => entry group (codec.pack packers group.toBytes) := by
  simp [header, payloads, List.zipWith_map_right, List.zipWith_self]

theorem flatten_payloads (packed : Packed) :
    (payloads packers packed codec).flatMap id =
      packed.groups.flatMap fun group => codec.pack packers group.toBytes := by
  simp [payloads, List.flatMap_map]

theorem length_payload_le {groups : List Group} {group : Group} (member : group ∈ groups) :
    (codec.pack packers group.toBytes).length ≤
      (groups.flatMap fun group => codec.pack packers group.toBytes).length := by
  rw [List.flatMap_def]
  exact (List.sublist_flatten_of_mem
    (List.mem_map_of_mem (f := fun group : Group => codec.pack packers group.toBytes)
      member)).length_le

theorem total_storedSize (groups : List Group) :
    total ((groups.map fun group => entry group (codec.pack packers group.toBytes)).map
      GroupEntry.storedSize) =
        (groups.flatMap fun group => codec.pack packers group.toBytes).length := by
  induction groups with
  | nil => rfl
  | cons group others ih =>
    simp only [List.map_cons, total_cons, ih, List.flatMap_cons, List.length_append]
    rfl

theorem storable_entries {packed : Packed} {created : Timestamp} (storable : packed.Storable)
    (fits : ((payloads packers packed codec).flatMap id).length < UInt64.size) :
    ∀ entry ∈ (header packed codec created (payloads packers packed codec)).groups,
      entry.Storable := by
  intro listed member
  rw [groups_header] at member
  obtain ⟨group, inside, rfl⟩ := List.mem_map.mp member
  rw [flatten_payloads] at fits
  exact ⟨(storable.groups group inside).columns,
    Nat.lt_of_le_of_lt (length_payload_le inside) fits, (storable.groups group inside).size⟩

theorem storable_header {packed : Packed} {created : Timestamp} (storable : packed.Storable)
    (time : Timestamp.read created.render = .ok created)
    (fits : ((payloads packers packed codec).flatMap id).length < UInt64.size) :
    (header packed codec created (payloads packers packed codec)).Storable :=
  ⟨show Header.currentVersion < UInt32.size by decide, storable.rows, storable.cols, time,
    storable_entries storable fits⟩

/-- The groups of a header list as many columns as the matrix has. -/
theorem coveredColumns_header {packed : Packed} {created : Timestamp} (covered : packed.Covered)
    (small : packed.cols < UInt64.size) :
    (header packed codec created (payloads packers packed codec)).coveredColumns = packed.cols := by
  have listed : (packed.groups.map fun group =>
      entry group (codec.pack packers group.toBytes)).map (fun entry => entry.columns.length) =
        packed.groups.map fun group => group.columns.length := by
    simp [entry, Function.comp_def]
  rw [Header.coveredColumns, groups_header, listed, covered.total_columns, Nat.mod_eq_of_lt small]

/-- A matrix that was made of groups is made of its own groups again. -/
theorem ofGroups_groups {rows cols : Nat} {groups : List Group} {packed : Packed}
    (made : Packed.ofGroups rows cols groups = .ok packed) :
    Packed.ofGroups packed.rows packed.cols packed.groups = .ok packed := by
  obtain ⟨sameRows, sameCols, sameGroups⟩ := Packed.fields_of_ofGroups made
  rw [sameRows, sameCols, sameGroups, made]

/-- An archive followed by any bytes is read as the matrix it was written for, and those bytes are
left. Its header lists the groups in order, and the size of all payloads is that of the bytes behind
the header. -/
theorem readWith_append_of_writeWith {rows cols : Nat} {groups : List Group} {packed : Packed}
    {created : Timestamp} {bytes : List UInt8}
    (made : Packed.ofGroups rows cols groups = .ok packed) (storable : packed.Storable)
    (restores : ∀ group ∈ packed.groups, packers.Restores codec group.toBytes)
    (time : Timestamp.read created.render = .ok created)
    (written : writeWith packers packed codec created = .ok bytes)
    (fits : bytes.length < UInt64.size) :
    (∀ behind, readWith packers (bytes ++ behind) = .ok (packed, behind)) ∧
      ∃ header payload, Header.read bytes = .ok (header, payload) ∧
        header.rows = packed.rows ∧ header.cols = packed.cols ∧ header.codec = codec ∧
        header.created = created ∧
        header.groups.map (fun entry =>
          (entry.encoding, entry.variant, entry.columns, entry.memorySize)) =
            packed.groups.map (fun group =>
              (group.encoding, group.variantName, group.columns, group.size)) ∧
        header.payloadSize = payload.length := by
  obtain ⟨front, headed, rfl⟩ := map_eq_ok written
  have payloadFits : ((payloads packers packed codec).flatMap id).length < UInt64.size := by
    rw [List.length_append] at fits
    omega
  have headerRead := Header.read_append_of_write (storable_header storable time payloadFits)
    rfl headed
  have covered := @coveredColumns_header packers codec packed created
    (Packed.covered_of_ofGroups made) storable.cols
  refine ⟨?_, _, _, headerRead _, rfl, rfl, rfl, rfl, ?_, ?_⟩
  · intro behind
    have groupsRead := readGroups_payloads storable.groups restores 0 behind
    have whole := ofGroups_groups made
    rw [List.append_assoc, readWith, headerRead]
    simp only [bind, Except.bind]
    rw [covered, groups_header, flatten_payloads]
    simp [header, groupsRead, whole, pure, Except.pure]
  · rw [groups_header]
    simp [entry, Function.comp_def]
  · rw [Header.payloadSize, groups_header, total_storedSize, ← flatten_payloads,
      Nat.mod_eq_of_lt payloadFits]

/-- A column with a negative zero in its first row. -/
def signedColumn : Packed where
  rows := 2
  cols := 1
  groups := [⟨[0], 2, .ddc ⟨#[⟨0x8000000000000000⟩, ⟨0⟩], 1⟩ (.byte #[0, 1])⟩]
  owners := #[0]

theorem readWith_append_of_writeWith_signedColumn :
    ∃ bytes, writeWith .standard signedColumn .zstd ⟨0, 0⟩ = .ok bytes ∧
      ∀ behind, readWith .standard (bytes ++ behind) = .ok (signedColumn, behind) := by
  have made : Packed.ofGroups 2 1 signedColumn.groups = .ok signedColumn := by decide +kernel
  have storable : signedColumn.Storable := by
    refine ⟨by decide, by decide, ?_⟩
    intro group member
    obtain rfl := List.mem_singleton.mp member
    exact ⟨by decide, by decide, by decide, ⟨⟨by decide, by decide⟩,
      show 2 < UInt64.size by decide⟩,
      by decide⟩
  have unpacked : ∀ group ∈ signedColumn.groups,
      Zstd.unpack (Zstd.pack group.toBytes) = .ok group.toBytes := by decide +kernel
  have restores : ∀ group ∈ signedColumn.groups, Packers.standard.Restores .zstd group.toBytes := by
    intro group member index
    simp [Codec.unpack, Codec.pack, Packers.standard, unpacked group member]
  have length : (writeWith .standard signedColumn .zstd ⟨0, 0⟩).map List.length = .ok 202 := by
    decide +kernel
  obtain ⟨bytes, written, counted⟩ := map_eq_ok length
  have fits : bytes.length < UInt64.size := by
    rw [counted]
    decide
  exact ⟨bytes, written, (readWith_append_of_writeWith made storable restores (by decide +kernel)
    written fits).1⟩

end Archive

end PackedMatrix
