import PackedMatrix.Cell

namespace PackedMatrix

/-- A finite number without its sign, `mantissa` times two to the power `exponent`. -/
structure Binary where
  mantissa : Nat
  exponent : Int
  deriving DecidableEq, Repr

/-- A number without its sign, as the quotient of whole numbers. -/
structure Ratio where
  num : Nat
  den : Nat
  deriving DecidableEq, Repr

/-- Decimal digits: `digits` times ten to the power `exponent`. -/
structure Digits where
  digits : Nat
  exponent : Int
  deriving DecidableEq, Repr

/-- The least mantissa of a number that is not close to zero; its bit is not stored. -/
def Binary.hiddenBit : Nat := 0x10000000000000

namespace Cell

def isNegative (cell : Cell) : Bool := cell.bits ≥ 0x8000000000000000

def isFinite (cell : Cell) : Bool := cell.magnitude < 0x7ff0000000000000

/-- The mantissa and exponent of a finite cell. -/
def binary (cell : Cell) : Binary :=
  let fraction := cell.magnitude.toNat % Binary.hiddenBit
  let biased := cell.magnitude.toNat / Binary.hiddenBit
  if biased = 0 then ⟨fraction, -1074⟩ else ⟨fraction + Binary.hiddenBit, Int.ofNat biased - 1075⟩

end Cell

namespace Binary

/-- `count` times two to the power `exponent`, as a quotient. -/
def scaled (count : Nat) (exponent : Int) : Ratio :=
  if exponent ≥ 0 then ⟨count <<< exponent.toNat, 1⟩ else ⟨count, 1 <<< (-exponent).toNat⟩

def ratio (number : Binary) : Ratio := scaled number.mantissa number.exponent

/-- The neighbour below lies half as far away when the mantissa is a power of two. -/
def hasNarrowGapBelow (number : Binary) : Bool :=
  number.mantissa == Binary.hiddenBit && decide (number.exponent > -1074)

/-- The lower end of the numbers that round to this one. -/
def lower (number : Binary) : Ratio :=
  let count := if number.hasNarrowGapBelow then 4 * number.mantissa - 1 else 4 * number.mantissa - 2
  scaled count (number.exponent - 2)

/-- The upper end of the numbers that round to this one. -/
def upper (number : Binary) : Ratio := scaled (4 * number.mantissa + 2) (number.exponent - 2)

end Binary

namespace Ratio

def lt (a b : Ratio) : Bool := a.num * b.den < b.num * a.den

def powTen (exponent : Int) : Ratio :=
  if exponent ≥ 0 then ⟨Nat.pow 10 exponent.toNat, 1⟩ else ⟨1, Nat.pow 10 (-exponent).toNat⟩

def mul (a b : Ratio) : Ratio := ⟨a.num * b.num, a.den * b.den⟩

def floor (a : Ratio) : Nat := a.num / a.den

/-- The nearest whole number; a half goes to the even neighbour. -/
def round (a : Ratio) : Nat :=
  let whole := a.floor
  let twice := a.num % a.den * 2
  if twice > a.den ∨ (twice = a.den ∧ whole % 2 = 1) then whole + 1 else whole

/-- The number of digits before the decimal point; of a number below one, less the zeros that
follow the point. -/
def magnitude (a : Ratio) : Int :=
  let whole := a.floor
  if whole > 0 then Int.ofNat (toString whole).length
  else
    let count := (List.range 400).find? fun t => a.num * Nat.pow 10 (t + 1) ≥ a.den
    Int.negOfNat (count.getD 0)

end Ratio

namespace Digits

def ratio (number : Digits) : Ratio := Ratio.mul ⟨number.digits, 1⟩ (Ratio.powTen number.exponent)

end Digits

namespace Binary

/-- Digits that read back as the number lie between its ends; the ends belong when the mantissa is
even. -/
def accepts (number : Binary) (digits : Digits) : Bool :=
  let value := digits.ratio
  if number.mantissa % 2 = 0 then
    !value.lt number.lower && !number.upper.lt value
  else number.lower.lt value && value.lt number.upper

/-- Of the two neighbours with `count` digits, the nearer one that reads back as the number. -/
def withDigits? (number : Binary) (count : Nat) : Option Digits :=
  let exponent := number.ratio.magnitude - (count : Int)
  let position := number.ratio.mul (Ratio.powTen (-exponent))
  let below : Digits := ⟨position.floor, exponent⟩
  let above : Digits := ⟨position.floor + 1, exponent⟩
  let nearer := if position.round = below.digits then below else above
  let other := if position.round = below.digits then above else below
  if number.accepts nearer then some nearer
  else if number.accepts other then some other
  else none

def dropZero (number : Digits) : Digits :=
  if number.digits % 10 = 0 then ⟨number.digits / 10, number.exponent + 1⟩ else number

/-- The fewest digits that read back as the number, and of those the nearest. A neighbour above can
gain a digit, which is then a zero: nine and a bit rounds to ten. -/
def shortest (number : Binary) : Digits :=
  let found := (List.range 17).findSome? fun count => number.withDigits? (count + 1)
  dropZero (found.getD ⟨0, 0⟩)

end Binary

namespace Decimal

def zeros (count : Int) : String := String.ofList (List.replicate count.toNat '0')

/-- The text of digits: positional as long as the point lies within sixteen digits or follows fewer
than five zeros, and with an exponent and its sign otherwise. Whole numbers keep a zero behind the
point. -/
def layout (number : Digits) : String :=
  let text := toString number.digits
  let length : Int := text.length
  let point := length + number.exponent
  let head (count : Int) : String := String.ofList (text.toList.take count.toNat)
  let tail (count : Int) : String := String.ofList (text.toList.drop count.toNat)
  if number.exponent ≥ 0 ∧ point ≤ 16 then text ++ zeros number.exponent ++ ".0"
  else if 0 < point ∧ point ≤ 16 then head point ++ "." ++ tail point
  else if -5 < point ∧ point ≤ 0 then "0." ++ zeros (-point) ++ text
  else
    let mark := if point > 0 then "e+" else "e"
    (if length = 1 then text else head 1 ++ "." ++ tail 1) ++ mark ++ toString (point - 1)

def sign (cell : Cell) : String := if cell.isNegative then "-" else ""

/-- The shortest text that reads back as the cell; only finite cells have one. -/
def shortest? (cell : Cell) : Option String :=
  if !cell.isFinite then none
  else if cell.magnitude == 0 then some (sign cell ++ "0.0")
  else some (sign cell ++ layout cell.binary.shortest)

/-- The text of a finite cell rounded to a number of places, a half to the even neighbour. -/
def fixed (places : Nat) (cell : Cell) : String :=
  if cell.isNaN then "NaN"
  else if !cell.isFinite then sign cell ++ "inf"
  else
    let scaled := (cell.binary.ratio.mul ⟨Nat.pow 10 places, 1⟩).round
    let text := toString scaled
    let padded := zeros ((places : Int) + 1 - text.length) ++ text
    let whole := padded.length - places
    let point := if places = 0 then "" else "."
    sign cell ++ String.ofList (padded.toList.take whole) ++ point ++
      String.ofList (padded.toList.drop whole)

end Decimal

end PackedMatrix
