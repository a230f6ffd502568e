import PackedMatrix.Cell
import PackedMatrix.Error

namespace PackedMatrix

/-- Why the input was handed back. -/
inductive AbortReason
  /-- No column is worth compressing, or there is nothing to group. -/
  | notCompressible
  /-- The result is not smaller than the input. -/
  | notBeneficial
  /-- A phase failed, and the settings ask for the input in that case. -/
  | failed (detail : String)
  deriving DecidableEq, Repr, Inhabited

namespace AbortReason

def message : AbortReason → String
  | notCompressible => "matrix is not compressible"
  | notBeneficial => "compression is not beneficial"
  | failed detail => "compression failed: " ++ detail

/-- The name of a reason as a record value. -/
def key : AbortReason → String
  | notCompressible => "not_compressible"
  | notBeneficial => "not_beneficial"
  | failed _ => "failed"

end AbortReason

structure Statistics where
  inputSize : Nat
  /-- The size of the result, which is that of the input after an abort. -/
  compressedSize : Nat
  /-- The sum of the group estimates, if it was asked for. -/
  estimatedSize : Option Nat := none
  ratio : Cell
  transposed : Bool := false
  groups : Nat := 0
  /-- The number of groups of each encoding that occurs, in the order of the encodings. -/
  groupTypes : List (Encoding × Nat) := []
  /-- The seconds of each phase that ran, in the order of the phases. -/
  phaseSeconds : List (Phase × Cell) := []
  abort : Option AbortReason := none
  deriving DecidableEq, Repr

namespace Statistics

/-- The ratio of a result that is as large as the input. -/
def unitRatio : Cell := .ofFloat 1.0

/-- Nothing done yet: the result is the input. -/
def start (inputSize : Nat) : Statistics :=
  { inputSize, compressedSize := inputSize, ratio := unitRatio }

/-- Puts a value at a key of a list in the order of `rank`, or changes the one that is there. -/
def upsert {κ α : Type} (rank : κ → Nat) (key : κ) (fresh : α) (change : α → α) :
    List (κ × α) → List (κ × α)
  | [] => [(key, fresh)]
  | (other, value) :: rest =>
    if rank key < rank other then (key, fresh) :: (other, value) :: rest
    else if rank key = rank other then (key, change value) :: rest
    else (other, value) :: upsert rank key fresh change rest

/-- A number of seconds and nanoseconds, in seconds. -/
def seconds (whole nanos : Nat) : Cell :=
  .ofFloat ((UInt64.ofNat (whole + nanos / 1000000000)).toFloat +
    (UInt64.ofNat (nanos % 1000000000)).toFloat / 1000000000.0)

def addSeconds (a b : Cell) : Cell := .ofFloat (a.toFloat + b.toFloat)

def recordPhase (stats : Statistics) (phase : Phase) (elapsed : Cell) : Statistics :=
  { stats with
    phaseSeconds := upsert Phase.rank phase (addSeconds Cell.zero elapsed)
      (addSeconds · elapsed) stats.phaseSeconds }

def recordGroup (stats : Statistics) (encoding : Encoding) : Statistics :=
  { stats with
    groupTypes := upsert Encoding.rank encoding 1 (· + 1) stats.groupTypes
    groups := stats.groups + 1 }

/-- How many times larger the input is; infinite if nothing is left. -/
def ratioOf (input compressed : Nat) : Cell :=
  if compressed = 0 then ⟨0x7ff0000000000000⟩
  else .ofFloat ((UInt64.ofNat input).toFloat / (UInt64.ofNat compressed).toFloat)

/-- Sets the size of the result, and the ratio with it. -/
def setCompressedSize (stats : Statistics) (size : Nat) : Statistics :=
  { stats with compressedSize := size, ratio := ratioOf stats.inputSize size }

def isCompressed (stats : Statistics) : Bool := stats.abort.isNone

/-- Marks the attempt as aborted: the result is the input, and has no groups. -/
def withAbort (stats : Statistics) (reason : AbortReason) : Statistics :=
  { stats with
    abort := some reason
    compressedSize := stats.inputSize
    ratio := unitRatio
    groups := 0
    groupTypes := [] }

/-- The time of all phases; that of none is a negative zero, the neutral element of addition. -/
def totalSeconds (stats : Statistics) : Cell :=
  stats.phaseSeconds.foldl (fun total phase => addSeconds total phase.2) ⟨0x8000000000000000⟩

end Statistics

end PackedMatrix
