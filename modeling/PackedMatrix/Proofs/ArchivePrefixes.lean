import PackedMatrix.Proofs.ArchiveRoundTrip
import PackedMatrix.Proofs.Steps

namespace PackedMatrix

open Decoder (Reads)

/-- A prefix of two parts ends inside the first one, or has it and a prefix of the second one. -/
theorem length_lt_or_exists_append {front head tail : List UInt8} (cut : front <+: head ++ tail) :
    front.length < head.length ∨ ∃ rest, front = head ++ rest ∧ rest <+: tail := by
  rcases Nat.lt_or_ge front.length head.length with inside | behind
  · exact Or.inl inside
  · obtain ⟨rest, rfl⟩ := List.prefix_of_prefix_length_le (List.prefix_append head tail) cut behind
    exact Or.inr ⟨rest, rfl, (List.prefix_append_right_inj head).mp cut⟩

namespace Header

theorem split_eq_ok {count : Nat} {bytes taken rest : List UInt8}
    (h : split count bytes = .ok (taken, rest)) : bytes.length = count + rest.length := by
  unfold split at h
  simp only at h
  split at h
  next => cases h
  next enough =>
    cases h
    rw [List.length_take] at enough
    rw [List.length_drop]
    omega

theorem split_of_short {count : Nat} {bytes : List UInt8} (short : bytes.length < count) :
    split count bytes = .error bytes.length := by
  have all : bytes.take count = bytes := List.take_of_length_le (Nat.le_of_lt short)
  simp [split, all, short]

/-- The failure if an archive ends before its header of so many bytes does. -/
def cutError (size length : Nat) : ArchiveError :=
  if length < 8 then .noMagic
  else if length < 12 then .noHeaderSize
  else .shortHeader size (length - 12)

/-- An archive that ends before its header does is not read; the failure names the part that is
cut. -/
theorem read_of_cut {header : Header} {bytes front : List UInt8}
    (written : header.write = .ok bytes) (cut : front <+: bytes)
    (short : front.length < bytes.length) :
    read front = .error (cutError header.toBytes.length front.length) := by
  obtain ⟨fits, rfl⟩ := write_eq_ok written
  have eight := length_magic
  have four := Bytes.length_ofNat 4 header.toBytes.length
  rcases length_lt_or_exists_append cut with inMagic | ⟨rest, rfl, behindMagic⟩
  · have less : front.length < 8 := by omega
    rw [read, split_of_short less, cutError, if_pos less]
    rfl
  · rcases length_lt_or_exists_append behindMagic with inSize | ⟨part, rfl, _⟩
    · have less : rest.length < 4 := by omega
      have magicSplit := split_append magic rest
      rw [eight] at magicSplit
      have length : (magic ++ rest).length = 8 + rest.length := by
        rw [List.length_append, eight]
      rw [length, cutError, if_neg (by omega), if_pos (by omega)]
      simp [read, magicSplit, split_of_short less, bind, Except.bind, Except.mapError]
    · simp only [List.length_append, eight, four] at short ⊢
      have less : part.length < header.toBytes.length := by omega
      have found : 8 + (4 + part.length) - 12 = part.length := by omega
      rw [read_append part _ fits, split_of_short less, cutError, if_neg (by omega),
        if_neg (by omega), found]
      rfl

/-- A time may be unreadable, but no other bytes are taken for it. -/
theorem timeDecoder_mayRead {text : String} (small : text.toUTF8.toList.length < UInt64.size) :
    timeDecoder.MayRead (Bytes.ofText text) fun _ => True := by
  refine (Reads.text small).last_mayRead ?_
  split
  next time _ => exact (Reads.pure time).mayRead trivial
  next error _ =>
    intro rest found left run
    cases run

section Written

variable {header : Header} (version : header.version < UInt32.size)
  (rows : header.rows < UInt64.size) (cols : header.cols < UInt64.size)
  (entries : ∀ entry ∈ header.groups, entry.Storable)

include version rows cols entries

theorem decoder_mayRead (small : header.toBytes.length < UInt64.size) :
    decoder.MayRead header.toBytes fun found => found.groups = header.groups := by
  have versionReads : (Decoder.nat 4).Reads (Bytes.ofNat 4 header.version) header.version :=
    Reads.nat version
  have codecReads : (Decoder.choice Codec.all.length Codec.ofRank?).Reads
      (Bytes.ofChoice header.codec.rank) header.codec :=
    Reads.choice (Nat.lt_of_lt_of_le header.codec.rank_lt (by decide))
      (Codec.ofRank?_rank header.codec)
  have createdReads := timeDecoder_mayRead
    (Nat.lt_of_le_of_lt header.length_created_le small)
  have groupsRead := Reads.items (Nat.lt_of_le_of_lt header.length_groups_le small)
    fun entry member => GroupEntry.decoder_reads (entries entry member)
      (Nat.lt_of_le_of_lt (length_entry_le member) small)
  simp only [toBytes, List.append_assoc]
  exact versionReads.bind_mayRead (codecReads.bind_mayRead ((Reads.size rows).bind_mayRead
    ((Reads.size cols).bind_mayRead (createdReads.bind fun created _ =>
      groupsRead.map.mayRead rfl))))

theorem groups_of_read {bytes rest left : List UInt8} {found : Header}
    (written : header.write = .ok bytes) (h : read (bytes ++ rest) = .ok (found, left)) :
    found.groups = header.groups ∧ left = rest := by
  obtain ⟨fits, rfl⟩ := write_eq_ok written
  rw [List.append_assoc, List.append_assoc, read_append _ _ fits, split_append] at h
  obtain ⟨_, taken, h⟩ := bind_eq_ok h
  cases taken
  obtain ⟨⟨other, after⟩, decoded, h⟩ := bind_eq_ok h
  have run := mapError_eq_ok decoded
  rw [← List.append_nil header.toBytes] at run
  obtain ⟨same, _⟩ := decoder_mayRead version rows cols entries (Nat.lt_trans fits (by decide))
    _ _ _ run
  simp only at h
  split at h
  next => cases h
  next =>
    cases h
    exact ⟨same, rfl⟩

end Written

end Header

namespace Archive

variable {packers : Packers} {codec : Codec}

/-- A group that is read is the one in its payload, and has the columns that its entry lists. -/
theorem readGroup_eq_ok {index : Nat} {entry : GroupEntry} {bytes rest : List UInt8}
    {group : Group} (h : readGroup packers codec index entry bytes = .ok (group, rest)) :
    ∃ payload unpacked, Header.split entry.storedSize bytes = .ok (payload, rest) ∧
      codec.unpack packers index payload = .ok unpacked ∧ Group.ofBytes unpacked = .ok group ∧
      group.columns = entry.columns := by
  obtain ⟨⟨payload, after⟩, taken, h⟩ := bind_eq_ok h
  obtain ⟨unpacked, opened, h⟩ := bind_eq_ok h
  obtain ⟨decoded, made, h⟩ := bind_eq_ok h
  split at h
  next => cases h
  next same =>
    cases h
    exact ⟨payload, unpacked, mapError_eq_ok taken, opened, mapError_eq_ok made,
      Decidable.not_not.mp same⟩

theorem readGroups_cons_eq_ok {entry : GroupEntry} {others : List GroupEntry} {index : Nat}
    {bytes rest : List UInt8} {groups : List Group}
    (h : readGroups packers codec index (entry :: others) bytes = .ok (groups, rest)) :
    ∃ group middle later, readGroup packers codec index entry bytes = .ok (group, middle) ∧
      readGroups packers codec (index + 1) others middle = .ok (later, rest) ∧
      groups = group :: later := by
  rw [readGroups] at h
  obtain ⟨⟨group, middle⟩, first, h⟩ := bind_eq_ok h
  obtain ⟨⟨later, behind⟩, run, h⟩ := bind_eq_ok h
  cases h
  exact ⟨group, middle, later, first, run, rfl⟩

theorem length_of_readGroups {entries : List GroupEntry} {index : Nat} {bytes rest : List UInt8}
    {groups : List Group}
    (h : readGroups packers codec index entries bytes = .ok (groups, rest)) :
    bytes.length = total (entries.map GroupEntry.storedSize) + rest.length := by
  induction entries generalizing index bytes groups with
  | nil =>
    cases h
    simp
  | cons entry others ih =>
    obtain ⟨group, middle, later, first, run, rfl⟩ := readGroups_cons_eq_ok h
    obtain ⟨_, _, taken, _⟩ := readGroup_eq_ok first
    have one := Header.split_eq_ok taken
    have more := ih run
    rw [List.map_cons, total_cons]
    omega

/-- A matrix that is read was made of the groups that the entries of the header announce. -/
theorem readWith_eq_ok {packed : Packed} {bytes rest : List UInt8}
    (h : readWith packers bytes = .ok (packed, rest)) :
    ∃ header payload groups, Header.read bytes = .ok (header, payload) ∧
      readGroups packers header.codec 0 header.groups payload = .ok (groups, rest) ∧
      Packed.ofGroups header.rows header.cols groups = .ok packed := by
  obtain ⟨⟨header, payload⟩, headed, h⟩ := bind_eq_ok h
  simp only at h
  split at h
  next => cases h
  next =>
    obtain ⟨⟨groups, left⟩, groupsRead, h⟩ := bind_eq_ok h
    obtain ⟨matrix, made, h⟩ := bind_eq_ok h
    cases h
    exact ⟨header, payload, groups, headed, groupsRead, mapError_eq_ok made⟩

/-- The entries of the header announce the bytes of all payloads. -/
theorem length_of_readWith {packed found : Packed} {created : Timestamp}
    {front part rest : List UInt8} (storable : packed.Storable)
    (fits : ((payloads packers packed codec).flatMap id).length < UInt64.size)
    (headed : (header packed codec created (payloads packers packed codec)).write = .ok front)
    (h : readWith packers (front ++ part) = .ok (found, rest)) :
    part.length = ((payloads packers packed codec).flatMap id).length + rest.length := by
  have entries : ∀ entry ∈ (header packed codec created (payloads packers packed codec)).groups,
      entry.Storable := storable_entries storable fits
  have current : (header packed codec created (payloads packers packed codec)).version <
      UInt32.size := show Header.currentVersion < UInt32.size by decide
  obtain ⟨heading, behind, _, headerRead, groupsRead, _⟩ := readWith_eq_ok h
  obtain ⟨groups, left⟩ := Header.groups_of_read current storable.rows storable.cols entries headed
    headerRead
  have consumed := length_of_readGroups groupsRead
  rwa [groups, groups_header, total_storedSize, ← flatten_payloads, left] at consumed

/-- No proper prefix of an archive is read as a matrix. If it ends before the header does, the
failure names the part that is cut. -/
theorem readWith_of_cut {packed : Packed} {created : Timestamp} {bytes front : List UInt8}
    (storable : packed.Storable) (written : writeWith packers packed codec created = .ok bytes)
    (fits : bytes.length < UInt64.size) (cut : front <+: bytes) (proper : front ≠ bytes) :
    ∃ error, readWith packers front = .error error ∧
      (front.length < 12 + (header packed codec created
          (payloads packers packed codec)).toBytes.length →
        error = Header.cutError (header packed codec created
          (payloads packers packed codec)).toBytes.length front.length) := by
  obtain ⟨heading, headed, rfl⟩ := map_eq_ok written
  rcases length_lt_or_exists_append cut with inHeader | ⟨part, rfl, inPayloads⟩
  · have start := List.prefix_of_prefix_length_le cut (List.prefix_append heading _)
      (Nat.le_of_lt inHeader)
    refine ⟨_, ?_, fun _ => rfl⟩
    rw [readWith, Header.read_of_cut headed start inHeader]
    rfl
  · have length : heading.length = 12 + (header packed codec created
        (payloads packers packed codec)).toBytes.length := by
      obtain ⟨_, rfl⟩ := Header.write_eq_ok headed
      simp only [List.length_append, Header.length_magic, Bytes.length_ofNat]
      omega
    cases run : readWith packers (heading ++ part) with
    | error error =>
      refine ⟨error, rfl, fun short => ?_⟩
      rw [List.length_append] at short
      omega
    | ok result =>
      rw [List.length_append] at fits
      have whole := length_of_readWith storable (by omega) headed run
      have all := inPayloads.eq_of_length_le (by omega)
      exact absurd (congrArg (heading ++ ·) all) proper

/-- A matrix of a constant column and an empty one. -/
def constantColumn : Packed where
  rows := 3
  cols := 2
  groups := [⟨[0], 3, .const ⟨#[⟨0x4008000000000000⟩], 1⟩⟩, ⟨[1], 3, .empty⟩]
  owners := #[0, 1]

theorem readWith_of_cut_constantColumn :
    ∃ bytes, writeWith .standard constantColumn .lz4 ⟨0, 0⟩ = .ok bytes ∧
      ∀ count, count < bytes.length →
        ∃ error, readWith .standard (bytes.take count) = .error error := by
  have storable : constantColumn.Storable := by
    refine ⟨by decide, by decide, ?_⟩
    intro group member
    rcases List.mem_pair.mp member with rfl | rfl
    · exact ⟨by decide, by decide, by decide, ⟨by decide, by decide⟩, by decide⟩
    · exact ⟨by decide, by decide, by decide, trivial, by decide⟩
  have length : (writeWith .standard constantColumn .lz4 ⟨0, 0⟩).map List.length = .ok 262 := by
    decide +kernel
  obtain ⟨bytes, written, counted⟩ := map_eq_ok length
  have fits : bytes.length < UInt64.size := by
    rw [counted]
    decide
  refine ⟨bytes, written, fun count inside => ?_⟩
  have proper : bytes.take count ≠ bytes := by
    intro same
    have := congrArg List.length same
    rw [List.length_take] at this
    omega
  obtain ⟨error, refused, _⟩ := readWith_of_cut storable written fits
    (List.take_prefix count bytes) proper
  exact ⟨error, refused⟩

end Archive

end PackedMatrix
