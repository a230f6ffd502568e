import PackedMatrix.Cost
import PackedMatrix.Group.Build
import PackedMatrix.Packed
import PackedMatrix.Statistics

namespace PackedMatrix

/-- How columns are grouped. -/
structure Grouper where
  /-- Whether the costs of the columns are worked out beforehand. -/
  needsCosts : Bool
  /-- The plans for the costs, of which there are none unless they are needed. -/
  plans : List ColumnCosts → Settings → Except PackError (List ColumnPlan)

namespace Grouper

/-- Every compressible column on its own, in its cheapest encoding. -/
def cheapest : Grouper := ⟨true, fun costs _ => .ok (ColumnCosts.cheapestPlans costs)⟩

/-- As planned beforehand, without looking at costs. -/
def fixed (plans : List ColumnPlan) : Grouper := ⟨false, fun _ _ => .ok plans⟩

end Grouper

/-- A matrix as it was given, or compressed. -/
inductive Matrix
  | plain (block : Block)
  | packed (matrix : Packed)
  deriving DecidableEq, Repr

namespace Matrix

def rows : Matrix → Nat
  | plain block => block.rows
  | packed matrix => matrix.rows

def cols : Matrix → Nat
  | plain block => block.cols
  | packed matrix => matrix.cols

def isPacked : Matrix → Bool
  | plain _ => false
  | packed _ => true

def size : Matrix → Nat
  | plain block => block.size
  | packed matrix => matrix.size

def get? (matrix : Matrix) (row col : Nat) : Except Fault (Option Cell) :=
  match matrix with
  | plain block => .ok (block.get? row col)
  | packed matrix => matrix.get? row col

end Matrix

/-- How an attempt ends if no phase fails. -/
inductive Outcome
  | compressed (matrix : Packed)
  | aborted (reason : AbortReason)
  deriving DecidableEq, Repr

/-- The end of an attempt and its statistics. These name every phase that ran, also one that failed;
there is no clock, so that the time of a phase is recorded as zero. -/
structure Attempt where
  result : Except PackError Outcome
  stats : Statistics

namespace Compressor

/-- The costs of the columns, unless the grouper does without them. -/
def classify (source : Source) (settings : Settings) (grouper : Grouper)
    (pool : Pool := .caller) : Except PackError (Option (List ColumnCosts)) :=
  if grouper.needsCosts then (ColumnCosts.ofSource source settings pool).map some else .ok none

/-- The plans of a grouper, checked. -/
def group (costs : List ColumnCosts) (cols : Nat) (settings : Settings) (grouper : Grouper) :
    Except PackError (List ColumnPlan) := do
  let plans ← grouper.plans costs settings
  ColumnPlan.validate plans cols settings

/-- The sum of the estimates of the planned groups. -/
def estimate (source : Source) (settings : Settings) (plans : List ColumnPlan) :
    Except PackError Nat := do
  let sizes ← plans.mapM fun plan => do
    let costs ← ColumnCosts.ofColumns source settings plan.columns
    pure ((costs.sizeOf? plan.encoding).getD costs.best.size)
  pure (total sizes)

/-- The columns that no group has. -/
def leftover (cols : Nat) (groups : List Group) : List Nat :=
  let assigned := (groups.flatMap Group.columns).foldl
    (fun assigned column => assigned.setIfInBounds column true) (Array.replicate cols false)
  (assigned.toList.zipIdx.filter (!·.1)).map Prod.snd

/-- The matrix of the groups and a copy of the columns that are left. The copy is made of the block
as it was given, even if the groups are made of its transpose. -/
def assemble (block : Block) (groups : List Group) : Except PackError Packed := do
  let columns := leftover block.cols groups
  if columns.isEmpty then Packed.ofGroups block.rows block.cols groups
  else
    let copy ← block.selectColumns columns false
    let rest : Group := ⟨columns, copy.rows, .uncompressed copy⟩
    Packed.ofGroups block.rows block.cols (groups ++ [rest])

def ran (stats : Statistics) (phase : Phase) : Statistics := stats.recordPhase phase Cell.zero

/-- The last phase, and the comparison with the size of the input. A matrix of the same size is no
gain either. -/
def finish (block : Block) (groups : List Group) (stats : Statistics) : Attempt :=
  let stats := ran stats .cleanup
  match assemble block groups with
  | .error error => ⟨.error (error.duringPhase .cleanup), stats⟩
  | .ok matrix =>
    if matrix.size ≥ stats.inputSize then ⟨.ok (.aborted .notBeneficial), stats⟩
    else
      let counted := matrix.groups.foldl (fun stats group => stats.recordGroup group.encoding)
        (stats.setCompressedSize matrix.size)
      ⟨.ok (.compressed matrix), counted⟩

/-- Builds the planned groups, adds up their estimates if that is asked for, and finishes. The sum
is recorded but has no say in what is built. -/
def build (block : Block) (settings : Settings) (plans : List ColumnPlan) (stats : Statistics)
    (pool : Pool := .caller) : Attempt :=
  let transposed := settings.shouldTranspose block.rows block.cols plans.length
  let source : Source := if transposed then ⟨block.transposeOn pool, true⟩ else ⟨block, false⟩
  let stats := ran { ran stats .transpose with transposed } .compress
  match Group.ofPlans source settings plans pool with
  | .error error => ⟨.error (error.duringPhase .compress), stats⟩
  | .ok groups =>
    if settings.investigateEstimate then
      match estimate source settings plans with
      | .error error => ⟨.error (error.duringPhase .compress), stats⟩
      | .ok size => finish block groups { stats with estimatedSize := some size }
    else finish block groups stats

/-- An attempt with settings in range and the given workers. -/
def run (block : Block) (settings : Settings) (grouper : Grouper) (pool : Pool := .caller) :
    Attempt :=
  let stats := ran (.start block.size) .classify
  match classify ⟨block, false⟩ settings grouper pool with
  | .error error => ⟨.error (error.duringPhase .classify), stats⟩
  | .ok costs =>
    if costs.any (fun costs => ColumnCosts.compressibleCount costs == 0) then
      ⟨.ok (.aborted .notCompressible), stats⟩
    else
      let stats := ran stats .coCode
      match group (costs.getD []) block.cols settings grouper with
      | .error error => ⟨.error (error.duringPhase .coCode), stats⟩
      | .ok plans =>
        if plans.isEmpty then ⟨.ok (.aborted .notCompressible), stats⟩
        else build block settings plans stats pool

/-- An attempt with as many workers as the settings ask for. The first phase fails if there are
none. -/
def runOn (threads : Threads) (block : Block) (settings : Settings) (grouper : Grouper) : Attempt :=
  match threads.pool settings.parallelism with
  | .error error => ⟨.error (error.duringPhase .classify), ran (.start block.size) .classify⟩
  | .ok pool => run block settings grouper pool

/-- Compresses a block with the given grouping. -/
def compressWith (block : Block) (settings : Settings) (grouper : Grouper)
    (threads : Threads := .caller) : Except PackError (Matrix × Statistics) := do
  let settings ← settings.normalize
  let attempt := runOn threads block settings grouper
  match attempt.result with
  | .ok (.compressed matrix) => pure (.packed matrix, attempt.stats)
  | .ok (.aborted reason) => pure (.plain block, attempt.stats.withAbort reason)
  | .error error =>
    if settings.fallbackOnError then
      pure (.plain block, attempt.stats.withAbort (.failed error.chainText))
    else throw error

/-- Compresses a block with every compressible column in a group of its own. -/
def compress (block : Block) (settings : Settings) (threads : Threads := .caller) :
    Except PackError (Matrix × Statistics) :=
  compressWith block settings .cheapest threads

end Compressor

end PackedMatrix
