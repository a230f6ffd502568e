namespace PackedMatrix

/-- The largest 32-bit number. Row and column numbers and the lengths of streams that are stored do
not exceed it. -/
def maxIndex : Nat := 4294967295

/-- Why a read of encoded parts has no answer. Parts from a damaged file may disagree with each
other; the checks that precede a read rule faults out. -/
inductive Fault
  /-- A position lies outside the array it is meant for. -/
  | outOfRange
  /-- A divisor is zero. -/
  | zeroDivisor
  /-- A sum leaves the range of stored numbers. -/
  | overflow
  deriving DecidableEq, Repr

def Fault.message : Fault → String
  | outOfRange => "index out of bounds"
  | zeroDivisor => "attempt to divide by zero"
  | overflow => "attempt to add with overflow"

/-- What a read found at a position, or the fault that there is nothing. -/
def Fault.found {α : Type} : Option α → Except Fault α
  | some value => .ok value
  | none => .error .outOfRange

end PackedMatrix
