import PackedMatrix.Archive
import PackedMatrix.Compressor
import PackedMatrix.Csv
import PackedMatrix.Files.Directory
import PackedMatrix.Settings.Yaml
import PackedMatrix.Statistics.Json
import PackedMatrix.Text.Quoted

namespace PackedMatrix

/-- What a command does to the outside. -/
structure Reply where
  exitCode : Nat
  /-- The texts of the report, each printed with a line break behind it. -/
  lines : List String
  /-- The error message, if there is one. -/
  error : Option String
  /-- A file to write. -/
  output : Option (String × List UInt8)
  deriving Repr

namespace Reply

def succeed (lines : List String) : Reply := ⟨0, lines, none, none⟩

def fail (lines : List String) (error : String) : Reply := ⟨1, lines, some error, none⟩

/-- The lines that are seen: a text of the report may hold line breaks of its own. -/
def seenLines (reply : Reply) : List String := reply.lines.flatMap Text.linesOf

end Reply

namespace Command

/-- What the arguments ask for. -/
structure Request where
  input : String
  config : Option String := none
  threads : Option Nat := none
  codec : Option Codec := none
  output : Option String := none
  hasHeader : Bool := false
  json : Bool := false
  deriving DecidableEq, Repr

/-- Arguments ask for help or for a compression. -/
inductive Invocation
  | help
  | compress (request : Request)
  deriving DecidableEq, Repr

/-- A number of threads; a plus sign may stand in front. -/
def readThreads (text : String) : Except Failure Nat :=
  let digits := match text.toList with
    | '+' :: rest => if rest.isEmpty then ['+'] else rest
    | digits => digits
  let fail (detail : String) : Except Failure Nat :=
    .error ⟨[s!"invalid thread count '{text}'"], some detail⟩
  if digits.isEmpty then fail "cannot parse integer from empty string"
  else if !digits.all Char.isDigit then fail "invalid digit found in string"
  else
    let value := Decimal.digitsValue digits
    if value < UInt64.size then .ok value else fail "number too large to fit in target type"

def valueOf (flag : String) : List String → Except Failure (String × List String)
  | [] => .error (.ofText (flag ++ " requires a value"))
  | value :: rest => .ok (value, rest)

/-- The arguments behind those that made up the request so far; the input is missing as long as it
is `none`. -/
def parseFrom (fuel : Nat) (input : Option String) (request : Request) (args : List String) :
    Except Failure Invocation :=
  match fuel, args with
  | 0, _ | _, [] =>
    match input with
    | some input => .ok (.compress { request with input })
    | none => .error (.ofText "missing input CSV file (see --help)")
  | fuel + 1, arg :: rest =>
    if arg = "--config" ∨ arg = "-c" then do
      let (config, rest) ← valueOf "--config" rest
      parseFrom fuel input { request with config := some config } rest
    else if arg = "--threads" ∨ arg = "-t" then do
      let (value, rest) ← valueOf "--threads" rest
      let threads ← readThreads value
      parseFrom fuel input { request with threads := some threads } rest
    else if arg = "--codec" then do
      let (value, rest) ← valueOf "--codec" rest
      let codec ← (Codec.parse value).mapError PackError.failure
      parseFrom fuel input { request with codec := some codec } rest
    else if arg = "--output" ∨ arg = "-o" then do
      let (output, rest) ← valueOf "--output" rest
      parseFrom fuel input { request with output := some output } rest
    else if arg = "--header" then parseFrom fuel input { request with hasHeader := true } rest
    else if arg = "--json" then parseFrom fuel input { request with json := true } rest
    else if arg = "--help" ∨ arg = "-h" then .ok .help
    else if arg.startsWith "-" then .error (.ofText ("Unknown argument: " ++ arg))
    else if input.isSome then .error (.ofText "only one input file may be given")
    else parseFrom fuel (some arg) request rest

/-- What arguments ask for. -/
def parse (args : List String) : Except Failure Invocation :=
  parseFrom args.length none ⟨"", none, none, none, none, false, false⟩ args

def helpLines : List String :=
  ["cmx - column-group matrix compression",
    "",
    "USAGE:",
    "\tcmx <input.csv> [OPTIONS]",
    "",
    "OPTIONS:",
    "\t-c, --config <FILE>     \tYAML compression settings",
    "\t-t, --threads <N>       \tParallelism of the compression phases",
    "\t    --codec <CODEC>     \tBlock codec of the output file: none, zstd, lz4",
    "\t-o, --output <FILE>     \tWrite the compressed matrix to FILE",
    "\t    --header            \tSkip the first CSV line",
    "\t    --json              \tPrint statistics as JSON",
    "\t-h, --help              \tShow this help message"]

def readSettings (files : Files) (path : String) : Except Failure Settings :=
  let unreadable (detail : String) : Failure :=
    ⟨["Failed to read settings file " ++ Text.quote path], some detail⟩
  match (files path).get unreadable unreadable with
  | .error failure => .error failure
  | .ok bytes =>
    match String.fromUTF8? ⟨bytes.toArray⟩ with
    | some text => Settings.read text
    | none => .error (unreadable "stream did not contain valid UTF-8")

def settingsFor (files : Files) (request : Request) : Except Failure Settings := do
  let settings ← match request.config with
    | some path => readSettings files path
    | none => pure {}
  pure { settings with
    parallelism := request.threads.getD settings.parallelism
    codec := request.codec.getD settings.codec }

def readInput (files : Files) (request : Request) : Except Failure Block := do
  let bytes ← (files request.input).get
    (fun reason => ⟨["Failed to open CSV file " ++ request.input], some reason⟩)
    (fun reason => { Csv.badRecord with detail := some reason })
  Csv.readBlock bytes request.hasHeader

def resultLines (stats : Statistics) : List String :=
  [s!"Compressed size: {stats.compressedSize} bytes", "Ratio: " ++ Decimal.fixed 2 stats.ratio,
    s!"Transposed: {stats.transposed}", s!"Groups: {stats.groups}"] ++
    stats.groupTypes.map fun entry => s!"  {Text.padRight 13 entry.1.name} {entry.2}"

def summary (request : Request) (matrix : Matrix) (stats : Statistics) : List String :=
  ["=== COMPRESSION ===", "Input: " ++ request.input, s!"Shape: {matrix.rows} x {matrix.cols}",
    s!"Original size: {stats.inputSize} bytes"] ++
  (match stats.abort with
    | some reason => ["Kept uncompressed: " ++ reason.message]
    | none => resultLines stats) ++
  (match stats.estimatedSize with
    | some size => [s!"Estimated size: {size} bytes"]
    | none => []) ++
  stats.phaseSeconds.map fun entry =>
    s!"  {Text.padRight 10 entry.1.name} {Decimal.fixed 3 entry.2}s"

def writeFailure (path : String) (failure : Failure) : Failure :=
  failure.within ("failed to write " ++ path)

def createFailure (path reason : String) : Failure :=
  writeFailure path ⟨["failed to create " ++ path], some reason⟩

def errorText (failure : Failure) : String := "Error: " ++ failure.text

/-- Compresses the input of a request. A matrix that stays as it is has no file written. -/
def compress (files : Files) (now : Timestamp) (request : Request) : Except Failure Reply := do
  let settings ← settingsFor files request
  let block ← readInput files request
  let (matrix, stats) ← (Compressor.compress block settings).mapError PackError.failure
  let lines := if request.json then [stats.render] else summary request matrix stats
  match request.output, matrix with
  | some path, .packed packed =>
    match Archive.write packed settings.codec now with
    | .ok bytes => pure ⟨0, lines, none, some (path, bytes)⟩
    | .error error => pure (.fail lines (errorText (writeFailure path error.failure)))
  | _, _ => pure (.succeed lines)

/-- Does what arguments ask for. -/
def run (files : Files) (now : Timestamp) (args : List String) : Reply :=
  let reply := do
    match ← parse args with
    | .help => pure (Reply.succeed helpLines)
    | .compress request => compress files now request
  match reply with
  | .ok reply => reply
  | .error failure => .fail [] (errorText failure)

/-- The reply when its file could not be created. -/
def notCreated (reply : Reply) (path reason : String) : Reply :=
  .fail reply.lines (errorText (createFailure path reason))

/-- Does what arguments ask for with the files of a directory. -/
def runIn (directory : Directory) (now : Timestamp) (args : List String) : Reply × Directory :=
  let reply := run directory.read now args
  match reply.output with
  | none => (reply, directory)
  | some (path, content) =>
    match directory.write path content with
    | .ok directory => (reply, directory)
    | .error error => (notCreated reply path error.message, directory)

end Command

end PackedMatrix
