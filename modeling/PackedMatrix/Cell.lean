namespace PackedMatrix

/-- One matrix cell, the bits of a binary64 number. Cells are compared by these bits, and only the
word of all zeros counts as zero, so that a negative zero is a value like any other. -/
structure Cell where
  bits : UInt64
  deriving DecidableEq, Hashable, Inhabited, Repr

namespace Cell

/-- The only cell that counts as zero. -/
def zero : Cell := ⟨0⟩

/-- A cell counts as zero when all its bits are clear. -/
def isZero (cell : Cell) : Bool := cell.bits == 0

theorem isZero_iff {cell : Cell} : cell.isZero = true ↔ cell = zero := by
  cases cell
  simp [isZero, zero]

/-- The bits below the sign. -/
def magnitude (cell : Cell) : UInt64 := cell.bits &&& 0x7fffffffffffffff

/-- A NaN has the largest exponent and a fraction that is not zero. -/
def isNaN (cell : Cell) : Bool := cell.magnitude > 0x7ff0000000000000

/-- Equality of numbers: both zeros agree and a NaN agrees with nothing. -/
def sameNumber (a b : Cell) : Bool :=
  !a.isNaN && (a == b || (a.magnitude == 0 && b.magnitude == 0))

/-- The number that the bits denote. -/
def toFloat (cell : Cell) : Float := Float.ofBits cell.bits

/-- The bits of a number; every NaN becomes the quiet one. -/
def ofFloat (number : Float) : Cell := ⟨number.toBits⟩

end Cell

/-- A tuple counts as zero when each of its cells does. -/
def isZeroTuple (tuple : List Cell) : Bool := tuple.all Cell.isZero

end PackedMatrix
