import PackedMatrix.Inspect
import Std.Time.DateTime.Timestamp

namespace PackedMatrix

namespace Program

def reason : IO.Error → String
  | .noFileOrDirectory .. => PathError.missing.message
  | .permissionDenied .. => "Permission denied (os error 13)"
  | .inappropriateType .. => PathError.isDirectory.message
  | error => toString error

/-- The content of a file, or why it cannot be had. A directory can be opened, but not read. -/
def readFile (path : String) : IO FileContent := do
  try
    let bytes ← IO.FS.readBinFile path
    pure (.bytes bytes.toList)
  catch
    | .inappropriateType .. => pure (.unreadable PathError.isDirectory.message)
    | error => pure (.closed (reason error))

def readFiles (paths : List String) : IO Files := do
  let contents ← paths.mapM fun path => do
    let content ← readFile path
    pure (path, content)
  pure fun path =>
    match contents.find? (·.1 == path) with
    | some found => found.2
    | none => .closed PathError.missing.message

/-- The files that a compression reads. -/
def inputsOf (args : List String) : List String :=
  match Command.parse args with
  | .ok (.compress request) => request.config.toList ++ [request.input]
  | _ => []

def now : IO Timestamp := do
  let time ← Std.Time.Timestamp.now
  let nanos := time.toNanosecondsSinceUnixEpoch.val
  pure ⟨nanos / 1000000000, (nanos % 1000000000).toNat⟩

/-- Writes the file of a reply, if it has one. -/
def writeOutput (reply : Reply) : IO Reply := do
  match reply.output with
  | none => pure reply
  | some (path, bytes) =>
    try
      IO.FS.writeBinFile path ⟨bytes.toArray⟩
      pure reply
    catch error => pure (Command.notCreated reply path (reason error))

/-- Prints a reply and ends with its exit code. -/
def finish (reply : Reply) : IO UInt32 := do
  reply.lines.forM IO.println
  match reply.error with
  | some text => IO.eprintln text
  | none => pure ()
  pure (UInt32.ofNat reply.exitCode)

end Program

end PackedMatrix

open PackedMatrix in
def main (args : List String) : IO UInt32 := do
  match args with
  | "inspect" :: rest =>
    let files ← Program.readFiles rest
    Program.finish (Inspect.run files rest)
  | _ =>
    let files ← Program.readFiles (Program.inputsOf args)
    let reply := Command.run files (← Program.now) args
    Program.finish (← Program.writeOutput reply)
