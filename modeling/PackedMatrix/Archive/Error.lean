import PackedMatrix.Archive.Lz4
import PackedMatrix.Archive.Zstd
import PackedMatrix.Failure

namespace PackedMatrix

/-- Why the bytes of an archive are not those of a matrix, or a matrix does not fit an archive. -/
inductive ArchiveError
  | noMagic
  | wrongMagic
  | noHeaderSize
  | shortHeader (expected found : Nat)
  | badHeader (cause : DecodeError)
  | version (found : Nat)
  | coverage (listed cols : Nat)
  | shortPayload (group expected found : Nat)
  | badZstd (group : Nat) (cause : ZstdError)
  | badLz4 (group : Nat) (cause : Lz4Error)
  | badGroup (group : Nat) (cause : DecodeError)
  | mismatch (group : Nat)
  | invalid (cause : PackError)
  | headerTooLarge
  deriving DecidableEq, Repr

namespace ArchiveError

/-- What a reader says when the bytes end inside a part of fixed size. -/
def shortRead : String := "failed to fill whole buffer"

def missing (expected found : Nat) : String := s!"expected {expected} bytes, found {found}"

def failure : ArchiveError → Failure
  | noMagic => ⟨["failed to read magic bytes"], some shortRead⟩
  | wrongMagic => .ofText "Invalid file format: magic bytes mismatch"
  | noHeaderSize => ⟨[], some shortRead⟩
  | shortHeader expected found => ⟨["truncated header", missing expected found], none⟩
  | badHeader cause => ⟨["corrupted header"], some cause.message⟩
  | version found => .ofText s!"Unsupported file version: {found}"
  | coverage listed cols =>
    .ofText s!"header lists {listed} group columns for a {cols}-column matrix"
  | shortPayload group expected found =>
    ⟨[s!"truncated payload of group {group}", missing expected found], none⟩
  | badZstd group cause => ⟨[s!"failed to decode group {group}"], some cause.message⟩
  | badLz4 group cause =>
    ⟨[s!"failed to decode group {group}", "LZ4 decompression failed"], some cause.message⟩
  | badGroup group cause => ⟨[s!"corrupted payload of group {group}"], some cause.message⟩
  | mismatch group => .ofText s!"group {group} does not match its header entry"
  | invalid cause => cause.failure
  | headerTooLarge =>
    ⟨["header too large"], some "out of range integral type conversion attempted"⟩

end ArchiveError

end PackedMatrix
