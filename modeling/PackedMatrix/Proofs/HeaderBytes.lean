import PackedMatrix.Archive.Header
import PackedMatrix.Proofs.Decoding
import PackedMatrix.Proofs.Steps

namespace PackedMatrix

open Decoder (Reads)

theorem Encoding.rank_lt (encoding : Encoding) : encoding.rank < Encoding.all.length := by
  cases encoding <;> decide

theorem Codec.rank_lt (codec : Codec) : codec.rank < Codec.all.length := by
  cases codec <;> decide

namespace GroupEntry

/-- The numbers of an entry are 64-bit numbers. -/
structure Storable (entry : GroupEntry) : Prop where
  columns : ∀ column ∈ entry.columns, column < UInt64.size
  storedSize : entry.storedSize < UInt64.size
  memorySize : entry.memorySize < UInt64.size

theorem length_pos (entry : GroupEntry) : 0 < entry.toBytes.length := by
  simp only [toBytes, List.length_append, Bytes.length_ofSize]
  omega

theorem length_columns_le (entry : GroupEntry) : entry.columns.length ≤ entry.toBytes.length := by
  have counted := Bytes.length_le_length_ofItems Bytes.ofSize entry.columns
    fun column _ => by rw [Bytes.length_ofSize]; omega
  simp only [toBytes, List.length_append]
  omega

theorem length_variant_le (entry : GroupEntry) :
    entry.variant.toUTF8.toList.length ≤ entry.toBytes.length := by
  have counted := Bytes.length_le_length_ofItems (fun byte => [byte])
    entry.variant.toUTF8.toList fun byte _ => by simp
  simp only [toBytes, Bytes.ofText, List.length_append]
  omega

theorem decoder_reads {entry : GroupEntry} (storable : entry.Storable)
    (small : entry.toBytes.length < UInt64.size) : decoder.Reads entry.toBytes entry := by
  have encoding : (Decoder.choice Encoding.all.length Encoding.ofRank?).Reads
      (Bytes.ofChoice entry.encoding.rank) entry.encoding :=
    Reads.choice (Nat.lt_of_lt_of_le entry.encoding.rank_lt (by decide))
      (Encoding.ofRank?_rank entry.encoding)
  have variant := Reads.text (Nat.lt_of_le_of_lt entry.length_variant_le small)
  have columns := Reads.items (Nat.lt_of_le_of_lt entry.length_columns_le small)
    fun column member => Reads.size (storable.columns column member)
  simp only [toBytes, List.append_assoc]
  exact encoding.bind (variant.bind (columns.bind
    ((Reads.size storable.storedSize).bind (Reads.size storable.memorySize).map)))

end GroupEntry

namespace Header

/-- The numbers of a header fit the words that they are stored in, and its time is the one that its
text denotes. -/
structure Storable (header : Header) : Prop where
  version : header.version < UInt32.size
  rows : header.rows < UInt64.size
  cols : header.cols < UInt64.size
  created : Timestamp.read header.created.render = .ok header.created
  groups : ∀ entry ∈ header.groups, entry.Storable

theorem length_created_le (header : Header) :
    header.created.render.toUTF8.toList.length ≤ header.toBytes.length := by
  have counted := Bytes.length_le_length_ofItems (fun byte => [byte])
    header.created.render.toUTF8.toList fun byte _ => by simp
  simp only [toBytes, Bytes.ofText, List.length_append]
  omega

theorem length_groups_le (header : Header) : header.groups.length ≤ header.toBytes.length := by
  have counted := Bytes.length_le_length_ofItems GroupEntry.toBytes header.groups
    fun entry _ => entry.length_pos
  simp only [toBytes, List.length_append]
  omega

theorem length_entry_le {header : Header} {entry : GroupEntry} (member : entry ∈ header.groups) :
    entry.toBytes.length ≤ header.toBytes.length := by
  have part : entry.toBytes.Sublist (header.groups.flatMap GroupEntry.toBytes) := by
    rw [List.flatMap_def]
    exact List.sublist_flatten_of_mem (List.mem_map_of_mem member)
  have := part.length_le
  simp only [toBytes, Bytes.ofItems, List.length_append]
  omega

theorem created_reads {created : Timestamp} (same : Timestamp.read created.render = .ok created)
    (small : created.render.toUTF8.toList.length < UInt64.size) :
    timeDecoder.Reads (Bytes.ofText created.render) created := by
  refine (Reads.text small).last ?_
  simp only [same]
  exact Reads.pure created

theorem decoder_reads {header : Header} (storable : header.Storable)
    (small : header.toBytes.length < UInt64.size) : decoder.Reads header.toBytes header := by
  have version : (Decoder.nat 4).Reads (Bytes.ofNat 4 header.version) header.version :=
    Reads.nat storable.version
  have codec : (Decoder.choice Codec.all.length Codec.ofRank?).Reads
      (Bytes.ofChoice header.codec.rank) header.codec :=
    Reads.choice (Nat.lt_of_lt_of_le header.codec.rank_lt (by decide))
      (Codec.ofRank?_rank header.codec)
  have created := created_reads storable.created
    (Nat.lt_of_le_of_lt header.length_created_le small)
  have groups := Reads.items (Nat.lt_of_le_of_lt header.length_groups_le small)
    fun entry member => GroupEntry.decoder_reads (storable.groups entry member)
      (Nat.lt_of_le_of_lt (length_entry_le member) small)
  simp only [toBytes, List.append_assoc]
  exact version.bind (codec.bind ((Reads.size storable.rows).bind
    ((Reads.size storable.cols).bind (created.bind groups.map))))

theorem split_append (front back : List UInt8) :
    split front.length (front ++ back) = .ok (front, back) := by
  simp [split]

theorem length_magic : magic.length = 8 := by
  change (ByteArray.toList.loop "CMXBLK01".toByteArray 0 []).length = 8
  rw [Bytes.toList_loop]
  rfl

theorem write_eq_ok {header : Header} {bytes : List UInt8} (written : header.write = .ok bytes) :
    header.toBytes.length < UInt32.size ∧
      bytes = magic ++ (Bytes.ofNat 4 header.toBytes.length ++ header.toBytes) := by
  unfold write at written
  simp only at written
  split at written
  next => cases written
  next small =>
    cases written
    rw [maxIndex] at small
    refine ⟨?_, List.append_assoc _ _ _⟩
    rw [UInt32.size]
    omega

/-- Behind the fixed bytes and the size, as many bytes are taken for the header. -/
theorem read_append (header : List UInt8) (size : Nat) (fits : size < UInt32.size) :
    read (magic ++ (Bytes.ofNat 4 size ++ header)) = (do
      let (headerBytes, bytes) ← (split size header).mapError (.shortHeader size)
      let (header, _) ← (decoder headerBytes).mapError .badHeader
      if header.version ≠ currentVersion then throw (.version header.version)
      pure (header, bytes)) := by
  have magicSplit := split_append magic (Bytes.ofNat 4 size ++ header)
  have sizeSplit := split_append (Bytes.ofNat 4 size) header
  have number : Bytes.toNat (Bytes.ofNat 4 size) = size := Bytes.toNat_ofNat fits
  rw [length_magic] at magicSplit
  rw [Bytes.length_ofNat] at sizeSplit
  simp only [read, magicSplit, mapError_ok, bind, Except.bind, ne_eq, not_true_eq_false, ↓reduceIte,
    sizeSplit, number]

/-- A header that was written is read back, and what follows it is left. -/
theorem read_append_of_write {header : Header} {bytes : List UInt8} (storable : header.Storable)
    (current : header.version = currentVersion) (written : header.write = .ok bytes)
    (rest : List UInt8) : read (bytes ++ rest) = .ok (header, rest) := by
  obtain ⟨fits, rfl⟩ := write_eq_ok written
  have decoded := decoder_reads storable (Nat.lt_trans fits (by decide)) []
  rw [List.append_nil] at decoded
  rw [List.append_assoc, List.append_assoc, read_append _ _ fits, split_append]
  simp only [mapError_ok, bind, Except.bind, decoded, current, ne_eq, not_true_eq_false, ↓reduceIte,
    pure, Except.pure]

end Header

end PackedMatrix
