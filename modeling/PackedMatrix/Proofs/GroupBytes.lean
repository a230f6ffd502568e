import PackedMatrix.Archive.GroupBytes
import PackedMatrix.Proofs.Decoding

namespace PackedMatrix

open Decoder (Reads)

namespace SparseRows

/-- The pointers, and the lengths of the arrays, are 64-bit numbers. -/
structure Storable (sparse : SparseRows) : Prop where
  pointers : ∀ pointer ∈ sparse.rowPtr, pointer < UInt64.size
  pointerCount : sparse.rowPtr.size < UInt64.size
  columnCount : sparse.colIdx.size < UInt64.size
  valueCount : sparse.values.size < UInt64.size

theorem decoder_reads {sparse : SparseRows} (storable : sparse.Storable) :
    decoder.Reads sparse.toBytes sparse := by
  have rowPtr := Reads.array storable.pointerCount
    fun pointer member => Reads.size (storable.pointers pointer member)
  have colIdx := Reads.words 4 storable.columnCount UInt32.toNat_lt_size
  have values := Reads.array storable.valueCount fun value _ => Reads.cell value
  have back : (sparse.colIdx.map UInt32.toNat).map UInt32.ofNat = sparse.colIdx := by
    simp [Function.comp_def]
  rw [toBytes, List.append_assoc]
  refine rowPtr.bind (colIdx.bind ?_)
  rw [back]
  exact values.map

end SparseRows

namespace BlockData

def Storable : BlockData → Prop
  | dense cells => cells.size < UInt64.size
  | sparse rows => rows.Storable

theorem decoder_reads {data : BlockData} (storable : data.Storable) :
    decoder.Reads data.toBytes data := by
  cases data with
  | dense cells =>
    have read := Reads.array (show cells.size < UInt64.size from storable)
      fun value _ => Reads.cell value
    exact Reads.alternative 0 (by decide) rfl read.map
  | sparse rows =>
    have read := SparseRows.decoder_reads (show rows.Storable from storable)
    exact Reads.alternative 1 (by decide) rfl read.map

end BlockData

namespace Block

structure Storable (block : Block) : Prop where
  rows : block.rows < UInt64.size
  cols : block.cols < UInt64.size
  data : block.data.Storable

theorem decoder_reads {block : Block} (storable : block.Storable) :
    decoder.Reads block.toBytes block := by
  rw [toBytes, List.append_assoc]
  exact (Reads.size storable.rows).bind
    ((Reads.size storable.cols).bind (BlockData.decoder_reads storable.data).map)

end Block

namespace Dictionary

structure Storable (dictionary : Dictionary) : Prop where
  valueCount : dictionary.values.size < UInt64.size
  width : dictionary.width < UInt64.size

theorem decoder_reads {dictionary : Dictionary} (storable : dictionary.Storable) :
    decoder.Reads dictionary.toBytes dictionary :=
  (Reads.array storable.valueCount fun value _ => Reads.cell value).bind
    (Reads.size storable.width).map

end Dictionary

namespace CodeMap

def Storable : CodeMap → Prop
  | bit words length => words.size < UInt64.size ∧ length < UInt64.size
  | byte codes => codes.size < UInt64.size
  | half codes => codes.size < UInt64.size
  | word codes => codes.size < UInt64.size

theorem decoder_reads {codes : CodeMap} (storable : codes.Storable) :
    decoder.Reads codes.toBytes codes := by
  cases codes with
  | bit words length =>
    obtain ⟨wordCount, lengthFits⟩ := storable
    have read := Reads.words 8 wordCount UInt64.toNat_lt_size
    have back : (words.map UInt64.toNat).map UInt64.ofNat = words := by simp [Function.comp_def]
    rw [toBytes, List.append_assoc]
    refine Reads.alternative 0 (by decide) rfl (read.bind ?_)
    rw [back]
    exact (Reads.size lengthFits).map
  | byte codes =>
    have read := @Reads.map _ _ _ (fun codes => byte (codes.map UInt8.ofNat)) _ _
      (Reads.octets (show codes.size < UInt64.size from storable))
    have back : (codes.map UInt8.toNat).map UInt8.ofNat = codes := by simp [Function.comp_def]
    rw [back] at read
    exact Reads.alternative 1 (by decide) rfl read
  | half codes =>
    have read := @Reads.map _ _ _ (fun codes => half (codes.map UInt16.ofNat)) _ _
      (Reads.words 2 (show codes.size < UInt64.size from storable) UInt16.toNat_lt_size)
    have back : (codes.map UInt16.toNat).map UInt16.ofNat = codes := by simp [Function.comp_def]
    rw [back] at read
    exact Reads.alternative 2 (by decide) rfl read
  | word codes =>
    have read := @Reads.map _ _ _ (fun codes => word (codes.map UInt32.ofNat)) _ _
      (Reads.words 4 (show codes.size < UInt64.size from storable) UInt32.toNat_lt_size)
    have back : (codes.map UInt32.toNat).map UInt32.ofNat = codes := by simp [Function.comp_def]
    rw [back] at read
    exact Reads.alternative 3 (by decide) rfl read

end CodeMap

namespace GapStream

theorem decoder_reads {gaps : GapStream} (storable : gaps.length < UInt64.size) :
    decoder.Reads gaps.toBytes gaps := by
  cases gaps with
  | byte words =>
    have read := @Reads.map _ _ _ (fun words => byte (words.map UInt8.ofNat)) _ _
      (Reads.octets (show words.size < UInt64.size from storable))
    have back : (words.map UInt8.toNat).map UInt8.ofNat = words := by simp [Function.comp_def]
    rw [back] at read
    exact Reads.alternative 0 (by decide) rfl read
  | half words =>
    have read := @Reads.map _ _ _ (fun words => half (words.map UInt16.ofNat)) _ _
      (Reads.words 2 (show words.size < UInt64.size from storable) UInt16.toNat_lt_size)
    have back : (words.map UInt16.toNat).map UInt16.ofNat = words := by simp [Function.comp_def]
    rw [back] at read
    exact Reads.alternative 1 (by decide) rfl read

end GapStream

namespace RowIndex

structure Storable (index : RowIndex) : Prop where
  gaps : index.gaps.length < UInt64.size
  anchorCount : index.anchors.size < UInt64.size
  length : index.length < UInt64.size

theorem anchor_reads (anchor : Anchor) : Anchor.decoder.Reads anchor.toBytes anchor := by
  have row : (Decoder.nat 4).Reads (Bytes.ofNat 4 anchor.row.toNat) anchor.row.toNat :=
    Reads.nat anchor.row.toNat_lt_size
  have position : (Decoder.nat 4).Reads (Bytes.ofNat 4 anchor.position.toNat)
      anchor.position.toNat := Reads.nat anchor.position.toNat_lt_size
  have read : Anchor.decoder.Reads anchor.toBytes
      ⟨UInt32.ofNat anchor.row.toNat, UInt32.ofNat anchor.position.toNat⟩ :=
    row.bind position.map
  rwa [UInt32.ofNat_toNat, UInt32.ofNat_toNat] at read

theorem decoder_reads {index : RowIndex} (storable : index.Storable) :
    decoder.Reads index.toBytes index := by
  rw [toBytes, List.append_assoc]
  exact (GapStream.decoder_reads storable.gaps).bind
    ((Reads.array storable.anchorCount fun anchor _ => anchor_reads anchor).bind
      (Reads.size storable.length).map)

end RowIndex

namespace Streams

structure Storable (streams : Streams) : Prop where
  pointerCount : streams.ptr.size < UInt64.size
  wordCount : streams.data.size < UInt64.size

theorem decoder_reads {streams : Streams} (storable : streams.Storable) :
    decoder.Reads streams.toBytes streams := by
  have ptr := Reads.words 4 storable.pointerCount UInt32.toNat_lt_size
  have data := Reads.words 2 storable.wordCount UInt16.toNat_lt_size
  have read : decoder.Reads streams.toBytes ⟨(streams.ptr.map UInt32.toNat).map UInt32.ofNat,
      (streams.data.map UInt16.toNat).map UInt16.ofNat⟩ := ptr.bind data.map
  simpa [Function.comp_def] using read

end Streams

namespace OffsetStreams

structure Storable (offsets : OffsetStreams) : Prop where
  blockSize : offsets.blockSize < UInt64.size
  streams : offsets.streams.Storable

theorem decoder_reads {offsets : OffsetStreams} (storable : offsets.Storable) :
    decoder.Reads offsets.toBytes offsets :=
  (Reads.size storable.blockSize).bind (Streams.decoder_reads storable.streams).map

end OffsetStreams

namespace GroupBody

/-- The parts that a body has are made of 64-bit numbers. -/
def Storable : GroupBody → Prop
  | empty => True
  | const dictionary => dictionary.Storable
  | ddc dictionary codes => dictionary.Storable ∧ codes.Storable
  | ole dictionary offsets => dictionary.Storable ∧ offsets.Storable
  | rle dictionary runs => dictionary.Storable ∧ Streams.Storable runs
  | sdc dictionary index codes => dictionary.Storable ∧ index.Storable ∧ codes.Storable
  | sdcZeros dictionary index codes => dictionary.Storable ∧ index.Storable ∧ codes.Storable
  | sdcSingle dictionary index => dictionary.Storable ∧ index.Storable
  | sdcSingleZeros dictionary index => dictionary.Storable ∧ index.Storable
  | uncompressed block => block.Storable

theorem pair_reads {α β : Type} {make : α → β → GroupBody} {first : Decoder α}
    {second : Decoder β} {front back : List UInt8} {a : α} {b : β} (ha : first.Reads front a)
    (hb : second.Reads back b) :
    (pairDecoder make first second).Reads (front ++ back) (make a b) :=
  ha.bind hb.map

theorem coded_reads {make : Dictionary → RowIndex → CodeMap → GroupBody}
    {dictionary : Dictionary} {index : RowIndex} {codes : CodeMap}
    (storable : dictionary.Storable ∧ index.Storable ∧ codes.Storable) :
    (codedDecoder make).Reads (dictionary.toBytes ++ index.toBytes ++ codes.toBytes)
      (make dictionary index codes) := by
  rw [List.append_assoc]
  exact (Dictionary.decoder_reads storable.1).bind
    ((RowIndex.decoder_reads storable.2.1).bind (CodeMap.decoder_reads storable.2.2).map)

/-- Every kind of body has a decoder, which reads the fields of such a body back. -/
theorem decoder?_reads {body : GroupBody} (storable : body.Storable) :
    ∃ fields, decoder? body.kind = some fields ∧ fields.Reads body.toBytes body := by
  cases body with
  | empty => exact ⟨_, rfl, Reads.pure empty⟩
  | const dictionary =>
    have read := Dictionary.decoder_reads (show dictionary.Storable from storable)
    exact ⟨_, rfl, read.map⟩
  | ddc dictionary codes =>
    exact ⟨_, rfl, pair_reads (Dictionary.decoder_reads storable.1)
      (CodeMap.decoder_reads storable.2)⟩
  | ole dictionary offsets =>
    exact ⟨_, rfl, pair_reads (Dictionary.decoder_reads storable.1)
      (OffsetStreams.decoder_reads storable.2)⟩
  | rle dictionary runs =>
    exact ⟨_, rfl, pair_reads (Dictionary.decoder_reads storable.1)
      (Streams.decoder_reads storable.2)⟩
  | sdc dictionary index codes => exact ⟨_, rfl, coded_reads storable⟩
  | sdcZeros dictionary index codes => exact ⟨_, rfl, coded_reads storable⟩
  | sdcSingle dictionary index =>
    exact ⟨_, rfl, pair_reads (Dictionary.decoder_reads storable.1)
      (RowIndex.decoder_reads storable.2)⟩
  | sdcSingleZeros dictionary index =>
    exact ⟨_, rfl, pair_reads (Dictionary.decoder_reads storable.1)
      (RowIndex.decoder_reads storable.2)⟩
  | uncompressed block =>
    have read := Block.decoder_reads (show block.Storable from storable)
    exact ⟨_, rfl, read.map⟩

theorem kind_lt (body : GroupBody) : body.kind < kinds := by
  cases body <;> simp [kind, kinds]

end GroupBody

namespace Group

/-- The numbers of a group, the lengths of its parts and the bytes it takes are 64-bit numbers. -/
structure Storable (group : Group) : Prop where
  columnCount : group.columns.length < UInt64.size
  columns : ∀ column ∈ group.columns, column < UInt64.size
  rows : group.rows < UInt64.size
  body : group.body.Storable
  size : group.size < UInt64.size

theorem decoder_reads {group : Group} (storable : group.Storable) :
    decoder.Reads group.toBytes group := by
  obtain ⟨fields, known, read⟩ := GroupBody.decoder?_reads storable.body
  have small : group.body.kind < Bytes.limit 4 :=
    Nat.lt_of_lt_of_le group.body.kind_lt (by decide)
  have columns := Reads.items storable.columnCount
    fun column member => Reads.size (storable.columns column member)
  rw [toBytes, List.append_assoc, List.append_assoc]
  exact (Reads.choice small known).bind (columns.bind ((Reads.size storable.rows).bind read.map))

theorem ofBytes_toBytes {group : Group} (storable : group.Storable) :
    ofBytes group.toBytes = .ok group := by
  have read := decoder_reads storable []
  rw [List.append_nil] at read
  rw [ofBytes, read]
  rfl

end Group

end PackedMatrix
