import PackedMatrix.Dictionary
import PackedMatrix.Group.Streams
import PackedMatrix.Total

namespace PackedMatrix

/-- Consecutive rows: the first one and their number. -/
structure Run where
  start : Nat
  length : Nat
  deriving DecidableEq, Repr, Inhabited

namespace Run

/-- The row behind the last one. -/
def stop (run : Run) : Nat := run.start + run.length

/-- Adds the next row of an increasing list to the runs before it; the last run comes first. -/
def extend (runs : List Run) (row : Nat) : List Run :=
  match runs with
  | last :: rest =>
    if row = last.stop then ⟨last.start, last.length + 1⟩ :: rest else ⟨row, 1⟩ :: runs
  | [] => [⟨row, 1⟩]

/-- The maximal runs of an increasing list. -/
def ofRows (rows : List Nat) : List Run := (rows.foldl extend []).reverse

def rows (run : Run) : List Nat := List.range' run.start run.length

end Run

/-- A gap and the length of the run behind it. -/
structure GapRun where
  gap : Nat
  length : Nat
  deriving DecidableEq, Repr, Inhabited

namespace GapRun

def maxWord : Nat := 65535

/-- The pairs of one run behind a gap. A gap too long for a word is gone over by pairs without rows,
all but its last part; a run too long for one goes on in pairs without a gap. A gap that is a whole
number of words keeps the last word, and so does a length. -/
def split (gap length : Nat) : List GapRun :=
  let skips := (gap - 1) / maxWord
  let first := min length maxWord
  let parts := (length - first) / maxWord
  let rest := (length - first) % maxWord
  List.replicate skips ⟨maxWord, 0⟩ ++ ⟨gap - skips * maxWord, first⟩ ::
    List.replicate parts ⟨0, maxWord⟩ ++ if rest = 0 then [] else [⟨0, rest⟩]

/-- The pairs of runs, the first of which lies behind row `stop`. -/
def ofRuns (stop : Nat) (runs : List Run) (pairs : Array GapRun) : Array GapRun :=
  match runs with
  | [] => pairs
  | run :: rest => ofRuns run.stop rest (pairs ++ (split (run.start - stop) run.length).toArray)

/-- The pairs of an increasing list. -/
def ofRows (rows : List Nat) : List GapRun := (ofRuns 0 (Run.ofRows rows) #[]).toList

def words (pairs : List GapRun) : List Nat := pairs.flatMap fun pair => [pair.gap, pair.length]

/-- The runs that words denote, the first of which lies behind row `stop`; a word without a partner
denotes nothing. -/
def decode (stop : Nat) (words : List Nat) (runs : Array Run) : Array Run :=
  match words with
  | gap :: length :: rest =>
    decode (stop + gap + length) rest (runs.push ⟨stop + gap, length⟩)
  | _ => runs

end GapRun

/-- The runs of each tuple. -/
abbrev RunStreams := Streams

namespace RunStreams

def pairCount (list : List Nat) : Nat := (GapRun.ofRows list).length

def ofBitmap (bitmap : Bitmap) : Except PackError RunStreams :=
  let streams := bitmap.lists.map fun list => GapRun.words (GapRun.ofRows list)
  let words := total (streams.map List.length)
  if words > maxIndex then .error (.invariant (.runStreamLength words))
  else .ok (Streams.ofLists streams)

def runsOf (runs : RunStreams) (tuple : Nat) : Except Fault (List Run) := do
  let words ← runs.stream tuple
  pure (GapRun.decode 0 words #[]).toList

/-- Whether one of the runs that start no later than a row reaches it; the search stops at the first
run that starts later. -/
def covers (runs : List Run) (row : Nat) : Bool :=
  (runs.takeWhile fun run => run.start ≤ row).any fun run => row < run.stop

/-- The first of so many tuples from number `tuple` on that a row belongs to. -/
def findTuple (runs : RunStreams) (row count tuple : Nat) : Except Fault (Option Nat) :=
  match count with
  | 0 => .ok none
  | count + 1 =>
    match RunStreams.runsOf runs tuple with
    | .error fault => .error fault
    | .ok found =>
      if covers found row then .ok (some tuple) else findTuple runs row count (tuple + 1)

/-- The first of so many tuples that a row belongs to. -/
def tupleOf (runs : RunStreams) (tuples row : Nat) : Except Fault (Option Nat) :=
  RunStreams.findTuple runs row tuples 0

/-- Checks that the last run of so many tuples from number `tuple` on ends inside. Runs start behind
each other, so no run ends behind the last one. -/
def checkFrom (runs : RunStreams) (rows count tuple : Nat) : Except Breach Unit :=
  match count with
  | 0 => .ok ()
  | count + 1 =>
    match RunStreams.runsOf runs tuple with
    | .error _ => .error .runPointers
    | .ok found =>
      if found.getLast?.any (·.stop > rows) then .error (.runEnd tuple rows)
      else RunStreams.checkFrom runs rows count (tuple + 1)

/-- The pointers fit the tuples, every stream consists of pairs, and no last run ends outside. -/
def check (runs : RunStreams) (tuples rows : Nat) : Except Breach Unit :=
  if !runs.pointersFit tuples (fun first last => first ≤ last && (last - first) % 2 == 0) then
    .error .runPointers
  else RunStreams.checkFrom runs rows tuples 0

end RunStreams

end PackedMatrix
