import PackedMatrix.Proofs.ArchivePrefixes

namespace PackedMatrix

/-- What reading a group needs to know of its entry: the columns to expect, and where the payload
ends. -/
def GroupEntry.extent (entry : GroupEntry) : List Nat × Nat := (entry.columns, entry.storedSize)

/-- What an entry says of its group beyond that: its kind, its variant and its size in memory. -/
def GroupEntry.labels (entry : GroupEntry) : Encoding × String × Nat :=
  (entry.encoding, entry.variant, entry.memorySize)

/-- The labels that describe a group. -/
def Group.labels (group : Group) : Encoding × String × Nat :=
  (group.encoding, group.variantName, group.size)

/-- Headers that a matrix is read by alike. -/
structure Header.SamePlan (header other : Header) : Prop where
  codec : header.codec = other.codec
  rows : header.rows = other.rows
  cols : header.cols = other.cols
  extents : header.groups.map GroupEntry.extent = other.groups.map GroupEntry.extent

namespace Archive

variable {packers : Packers} {codec : Codec}

theorem columns_of_readGroups {entries : List GroupEntry} {index : Nat} {bytes rest : List UInt8}
    {groups : List Group}
    (h : readGroups packers codec index entries bytes = .ok (groups, rest)) :
    entries.map GroupEntry.columns = groups.map Group.columns := by
  induction entries generalizing index bytes groups with
  | nil =>
    cases h
    rfl
  | cons entry others ih =>
    obtain ⟨group, middle, later, first, run, rfl⟩ := readGroups_cons_eq_ok h
    obtain ⟨_, _, _, _, _, same⟩ := readGroup_eq_ok first
    rw [List.map_cons, List.map_cons, same, ih run]

/-- The labels of an entry do not matter to its group. -/
theorem readGroup_congr {entry other : GroupEntry} (same : entry.extent = other.extent)
    (index : Nat) (bytes : List UInt8) :
    readGroup packers codec index entry bytes = readGroup packers codec index other bytes := by
  obtain ⟨columns, storedSize⟩ := Prod.mk.inj same
  rw [readGroup, readGroup, columns, storedSize]

theorem readGroups_congr {entries others : List GroupEntry}
    (same : entries.map GroupEntry.extent = others.map GroupEntry.extent) (index : Nat)
    (bytes : List UInt8) :
    readGroups packers codec index entries bytes = readGroups packers codec index others bytes := by
  induction entries generalizing index bytes others with
  | nil =>
    obtain rfl := List.map_eq_nil_iff.mp same.symm
    rfl
  | cons entry rest ih =>
    cases others with
    | nil => cases same
    | cons other others =>
      obtain ⟨first, later⟩ := List.cons.inj same
      simp only [readGroups, readGroup_congr first, ih later]

/-- Headers that only differ in the labels of their entries, and in when they were made, are
followed by the same matrix. -/
theorem readWith_congr {bytes others payload : List UInt8} {header other : Header}
    (headed : Header.read bytes = .ok (header, payload))
    (headedToo : Header.read others = .ok (other, payload)) (same : header.SamePlan other) :
    readWith packers bytes = readWith packers others := by
  have covered : header.coveredColumns = other.coveredColumns := by
    have lengths := congrArg (List.map fun extent : List Nat × Nat => extent.1.length) same.extents
    rw [List.map_map, List.map_map] at lengths
    exact congrArg (total · % UInt64.size) lengths
  simp only [readWith, headed, headedToo, bind, Except.bind, covered, same.codec, same.rows,
    same.cols, readGroups_congr same.extents]

/-- The header of an archive that is read has the shape of the matrix, and its entries list the
columns of the groups, in order, and the bytes of all payloads. The labels of the entries are not
compared with anything: whatever other bytes have a header of the same plan in front of the same
payloads are read as the same matrix. -/
theorem plan_of_readWith {bytes rest : List UInt8} {packed : Packed}
    (loaded : readWith packers bytes = .ok (packed, rest)) :
    ∃ header payload, Header.read bytes = .ok (header, payload) ∧
      header.rows = packed.rows ∧ header.cols = packed.cols ∧
      header.groups.map GroupEntry.columns = packed.groups.map Group.columns ∧
      payload.length = total (header.groups.map GroupEntry.storedSize) + rest.length ∧
      ∀ others other, Header.read others = .ok (other, payload) → header.SamePlan other →
        readWith packers others = .ok (packed, rest) := by
  obtain ⟨header, payload, groups, headed, groupsRead, made⟩ := readWith_eq_ok loaded
  obtain ⟨rows, cols, sameGroups⟩ := Packed.fields_of_ofGroups made
  refine ⟨header, payload, headed, rows.symm, cols.symm, ?_, length_of_readGroups groupsRead, ?_⟩
  · rw [sameGroups]
    exact columns_of_readGroups groupsRead
  · intro others other headedToo same
    rw [← readWith_congr headed headedToo same, loaded]

/-- A column whose rows all hold a three. -/
def threes : Group := ⟨[0], 3, .const ⟨#[⟨0x4008000000000000⟩], 1⟩⟩

/-- A header for that column whose entry carries the labels. -/
def labelled (labels : Encoding × String × Nat) : Header where
  version := Header.currentVersion
  codec := .plain
  rows := 3
  cols := 1
  created := ⟨0, 0⟩
  groups := [⟨labels.1, labels.2.1, [0], threes.toBytes.length, labels.2.2⟩]

/-- The bytes of that header, in front of the group. -/
def labelledThrees (labels : Encoding × String × Nat) : List UInt8 :=
  (labelled labels).write.toOption.getD [] ++ threes.toBytes

/-- The matrix of that column. -/
def onlyThrees : Packed where
  rows := 3
  cols := 1
  groups := [threes]
  owners := #[0]

/-- With the right labels or with wrong ones, the same matrix is read. -/
theorem plan_of_readWith_threes :
    readWith .standard (labelledThrees threes.labels) = .ok (onlyThrees, []) ∧
      readWith .standard (labelledThrees (.ole, "OLE", 7)) = .ok (onlyThrees, []) := by
  have loaded : readWith .standard (labelledThrees threes.labels) = .ok (onlyThrees, []) := by
    decide +kernel
  have right : Header.read (labelledThrees threes.labels) =
      .ok (labelled threes.labels, threes.toBytes) := by
    decide +kernel
  have wrong : Header.read (labelledThrees (.ole, "OLE", 7)) =
      .ok (labelled (.ole, "OLE", 7), threes.toBytes) := by
    decide +kernel
  obtain ⟨header, payload, headed, _, _, _, _, unchecked⟩ := plan_of_readWith loaded
  rw [right] at headed
  cases headed
  exact ⟨loaded, unchecked _ _ wrong ⟨rfl, rfl, rfl, rfl⟩⟩

/-- A constant group is read although its entry says that it is one of offset lists, of seven
bytes. -/
theorem labels_of_readWith_differ :
    readWith .standard (labelledThrees (.ole, "OLE", 7)) = .ok (onlyThrees, []) ∧
      Header.read (labelledThrees (.ole, "OLE", 7)) =
        .ok (labelled (.ole, "OLE", 7), threes.toBytes) ∧
      (labelled (.ole, "OLE", 7)).groups.map GroupEntry.labels = [(.ole, "OLE", 7)] ∧
      onlyThrees.groups.map Group.labels = [(.const, "CONST", 52)] := by
  decide +kernel

end Archive

end PackedMatrix
