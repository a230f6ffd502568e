import PackedMatrix.Command

namespace PackedMatrix

namespace Inspect

def closed (path reason : String) : Failure := ⟨["failed to open " ++ path], some reason⟩

def unreadable (reason : String) : Failure := { ArchiveError.noMagic.failure with detail := reason }

def loadHeader (files : Files) (path : String) : Except Failure Header := do
  let bytes ← (files path).get (closed path) unreadable
  let (header, _) ← (Header.read bytes).mapError ArchiveError.failure
  pure header

def load (files : Files) (path : String) : Except Failure Packed := do
  let loading (failure : Failure) : Failure := failure.within ("failed to load " ++ path)
  let bytes ← (files path).get (closed path) fun reason => loading (unreadable reason)
  let (packed, _) ← (Archive.read bytes).mapError fun error => loading error.failure
  pure packed

def headerLines (path : String) (header : Header) : List String :=
  ["=== FILE INFORMATION ===", "File: " ++ path, s!"Version: {header.version}",
    "Codec: " ++ header.codec.title, "Created: " ++ header.created.renderOffset,
    s!"Shape: {header.rows} x {header.cols}", s!"Payload: {header.payloadSize} bytes"]

def groupLine (entry : GroupEntry) (group : Group) : String :=
  let tuples := match group.body.dictionary? with
    | some dictionary => toString dictionary.tuples
    | none => "-"
  s!"  {Text.padRight 16 entry.variant} columns {bracketed entry.columns}: {tuples} tuples, " ++
    s!"{entry.storedSize} bytes stored, {entry.memorySize} bytes in memory"

def groupLines (header : Header) (packed : Packed) : List String :=
  ["", "=== COLUMN GROUPS ==="] ++ header.groups.zipWith groupLine packed.groups ++
    ["", s!"In-memory size: {packed.size} bytes", s!"✓ {packed.groups.length} groups valid"]

/-- Shows the archive that the only argument names. -/
def run (files : Files) (args : List String) : Reply :=
  match args with
  | [path] =>
    match loadHeader files path with
    | .error failure => .fail [] s!"✗ Error reading header of '{path}': {failure.text}"
    | .ok header =>
      let lines := headerLines path header
      match load files path with
      | .error failure => .fail lines s!"✗ Error loading file '{path}': {failure.text}"
      | .ok packed => .succeed (lines ++ groupLines header packed)
  | _ => .fail [] "Usage: inspect <file.cmx>"

end Inspect

end PackedMatrix
