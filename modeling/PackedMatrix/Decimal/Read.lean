import PackedMatrix.Decimal

namespace PackedMatrix

namespace Ratio

/-- The exponent of the last binary place of the cell nearest to a positive number: 53 places, or
fewer close to zero. -/
def lastPlace (a : Ratio) : Int :=
  let estimate : Int := (a.num.log2 : Int) - (a.den.log2 : Int) - 52
  let tooHigh := (a.mul (Binary.scaled 1 (-estimate))).floor < Binary.hiddenBit
  max (if tooHigh then estimate - 1 else estimate) (-1074)

/-- The bits, without sign, of the cell nearest to a number. -/
def nearestBits (a : Ratio) : Nat :=
  if a.num = 0 then 0
  else
    let place := a.lastPlace
    let mantissa := (a.mul (Binary.scaled 1 (-place))).round
    let bits := mantissa + (place + 1074).toNat * Binary.hiddenBit
    if bits ≥ 0x7ff0000000000000 then 0x7ff0000000000000 else bits

end Ratio

namespace Decimal

/-- A number as it is written: digits in front of and behind the point, and an exponent. -/
structure Parts where
  whole : List Char
  fraction : List Char
  exponent : Int
  deriving DecidableEq, Repr

def digitsValue (digits : List Char) : Nat :=
  digits.foldl (fun value digit => value * 10 + (digit.toNat - '0'.toNat)) 0

def splitDigits (text : List Char) : List Char × List Char :=
  (text.takeWhile Char.isDigit, text.dropWhile Char.isDigit)

/-- The exponent that a text consists of, if any: a mark, an optional sign and digits. -/
def readExponent : List Char → Option Int
  | [] => some 0
  | mark :: rest =>
    if mark = 'e' ∨ mark = 'E' then
      let (negative, digits) := match rest with
        | '-' :: digits => (true, digits)
        | '+' :: digits => (false, digits)
        | digits => (false, digits)
      if digits.isEmpty ∨ !digits.all Char.isDigit then none
      else
        let value : Int := digitsValue digits
        some (if negative then -value else value)
    else none

/-- The parts of a number without a sign. -/
def readParts (text : List Char) : Option Parts :=
  let (whole, rest) := splitDigits text
  let (fraction, rest) := match rest with
    | '.' :: rest => splitDigits rest
    | rest => ([], rest)
  if whole.isEmpty ∧ fraction.isEmpty then none
  else (readExponent rest).map fun exponent => ⟨whole, fraction, exponent⟩

/-- The bits, without sign, of the cell nearest to the number that the parts denote. Numbers far
outside the range need no exact arithmetic. -/
def Parts.bits (parts : Parts) : Nat :=
  let digits := (parts.whole ++ parts.fraction).dropWhile (· = '0')
  let exponent := parts.exponent - (parts.fraction.length : Int)
  let point := (digits.length : Int) + exponent
  if digits.isEmpty ∨ point < -400 then 0
  else if point > 400 then 0x7ff0000000000000
  else (Digits.ratio ⟨digitsValue digits, exponent⟩).nearestBits

/-- The bits, without sign, that a text without a sign denotes. -/
def readMagnitude (text : List Char) : Option Nat :=
  let lower := String.ofList (text.map Char.toLower)
  if lower = "inf" ∨ lower = "infinity" then some 0x7ff0000000000000
  else if lower = "nan" then some 0x7ff8000000000000
  else (readParts text).map Parts.bits

/-- The cell that a text denotes. -/
def read (text : String) : Option Cell :=
  match text.toList with
  | '-' :: rest => (readMagnitude rest).map fun bits => ⟨UInt64.ofNat (0x8000000000000000 + bits)⟩
  | '+' :: rest => (readMagnitude rest).map fun bits => ⟨UInt64.ofNat bits⟩
  | rest => (readMagnitude rest).map fun bits => ⟨UInt64.ofNat bits⟩

end Decimal

end PackedMatrix
