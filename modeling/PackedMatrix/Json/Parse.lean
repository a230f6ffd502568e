import PackedMatrix.Json
import PackedMatrix.Decimal.Read

namespace PackedMatrix

namespace Json

/-- A value read and the text behind it. -/
abbrev Reading (α : Type) := Option (α × List Char)

def isBlank (c : Char) : Bool := c = ' ' || c = '\n' || c = '\t' || c = '\r'

def skipBlanks (text : List Char) : List Char := text.dropWhile isBlank

def maxNatural : Nat := 18446744073709551615

/-- Scales a cell by ten to a power, at most 308 places at a time. -/
def scaleTen (fuel : Nat) (value : Float) (exponent : Int) : JsonNumber :=
  match fuel with
  | 0 => .float (Cell.ofFloat value)
  | fuel + 1 =>
    let power (places : Nat) : Float := Float.ofScientific 1 false places
    if exponent.natAbs ≤ 308 then
      if exponent ≥ 0 then
        let scaled := value * power exponent.natAbs
        if scaled.isInf then .huge else .float (Cell.ofFloat scaled)
      else .float (Cell.ofFloat (value / power exponent.natAbs))
    else if value == 0.0 then .float (Cell.ofFloat value)
    else if exponent ≥ 0 then .huge
    else scaleTen fuel (value / power 308) (exponent + 308)

/-- Changes the sign of a number that is not whole. -/
def withSign (negative : Bool) : JsonNumber → JsonNumber
  | .float cell => .float (if negative then ⟨cell.bits ^^^ 0x8000000000000000⟩ else cell)
  | other => other

/-- Digits that fit 64 bits, with what is left of the digits. -/
def takeSignificand (significand : Nat) : List Char → Nat × List Char
  | [] => (significand, [])
  | digit :: rest =>
    let next := significand * 10 + (digit.toNat - '0'.toNat)
    if next > maxNatural then (significand, digit :: rest) else takeSignificand next rest

/-- The number that digits and a fraction denote, scaled by ten to a power. -/
def scaleDigits (negative : Bool) (whole fraction : List Char) (exponent : Int) : JsonNumber :=
  let (significand, dropped) := takeSignificand 0 whole
  let (significand, unused) := takeSignificand significand fraction
  let used := fraction.length - unused.length
  let places : Int := Int.ofNat dropped.length - Int.ofNat used + exponent
  if significand = 0 then withSign negative (.float Cell.zero)
  else withSign negative (scaleTen 20 (UInt64.ofNat significand).toFloat places)

/-- A number without fraction and exponent. -/
def wholeNumber (negative : Bool) (digits : List Char) : JsonNumber :=
  let value := Decimal.digitsValue digits
  if value > maxNatural then scaleDigits negative digits [] 0
  else if !negative then .natural value
  else if value = 0 ∨ value > 0x8000000000000000 then
    withSign true (.float (Cell.ofFloat (UInt64.ofNat value).toFloat))
  else .negative value

def readExponent : List Char → Reading (Option Int)
  | [] => some (none, [])
  | mark :: rest =>
    if mark = 'e' ∨ mark = 'E' then
      let (negative, rest) := match rest with
        | '-' :: rest => (true, rest)
        | '+' :: rest => (false, rest)
        | rest => (false, rest)
      let (digits, rest) := Decimal.splitDigits rest
      if digits.isEmpty then none
      else
        let value := Int.ofNat (min (Decimal.digitsValue digits) 4000000)
        some (some (if negative then -value else value), rest)
    else some (none, mark :: rest)

/-- A number in front of a text. -/
def readNumber (text : List Char) : Reading JsonNumber :=
  let (negative, text) := match text with
    | '-' :: rest => (true, rest)
    | rest => (false, rest)
  let (whole, rest) := Decimal.splitDigits text
  if whole.isEmpty ∨ (whole.length > 1 ∧ whole.head? = some '0') then none
  else
    let (hasPoint, fraction, rest) := match rest with
      | '.' :: rest =>
        let (fraction, rest) := Decimal.splitDigits rest
        (true, fraction, rest)
      | rest => (false, [], rest)
    if hasPoint ∧ fraction.isEmpty then none
    else
      match readExponent rest with
      | none => none
      | some (none, rest) =>
        if hasPoint then some (scaleDigits negative whole fraction 0, rest)
        else some (wholeNumber negative whole, rest)
      | some (some exponent, rest) => some (scaleDigits negative whole fraction exponent, rest)

def hexValue? (c : Char) : Option Nat :=
  if c.isDigit then some (c.toNat - '0'.toNat)
  else if 'a' ≤ c ∧ c ≤ 'f' then some (c.toNat - 'a'.toNat + 10)
  else if 'A' ≤ c ∧ c ≤ 'F' then some (c.toNat - 'A'.toNat + 10)
  else none

/-- Four hexadecimal digits in front of a text. -/
def readUnit : List Char → Option (Nat × List Char)
  | a :: b :: c :: d :: rest => do
    let a ← hexValue? a
    let b ← hexValue? b
    let c ← hexValue? c
    let d ← hexValue? d
    some (((a * 16 + b) * 16 + c) * 16 + d, rest)
  | _ => none

/-- The character of a numbered escape: one unit, or a pair of surrogates. -/
def readCodePoint (text : List Char) : Reading Char :=
  match readUnit text with
  | none => none
  | some (unit, rest) =>
    if unit < 0xd800 ∨ unit > 0xdfff then some (Char.ofNat unit, rest)
    else if unit > 0xdbff then none
    else
      match rest with
      | '\\' :: 'u' :: rest =>
        match readUnit rest with
        | none => none
        | some (low, rest) =>
          if low < 0xdc00 ∨ low > 0xdfff then none
          else some (Char.ofNat (0x10000 + (unit - 0xd800) * 0x400 + (low - 0xdc00)), rest)
      | _ => none

def readEscape : List Char → Reading Char
  | '"' :: rest => some ('"', rest)
  | '\\' :: rest => some ('\\', rest)
  | '/' :: rest => some ('/', rest)
  | 'b' :: rest => some (Char.ofNat 8, rest)
  | 'f' :: rest => some (Char.ofNat 12, rest)
  | 'n' :: rest => some ('\n', rest)
  | 'r' :: rest => some ('\r', rest)
  | 't' :: rest => some ('\t', rest)
  | 'u' :: rest => readCodePoint rest
  | _ => none

/-- The text up to the closing quote. The first argument bounds the number of characters. -/
def readText (fuel : Nat) (text : List Char) (read : Array Char) : Reading String :=
  match fuel, text with
  | 0, _ => none
  | _, [] => none
  | fuel + 1, c :: rest =>
    if c = '"' then some (String.ofList read.toList, rest)
    else if c = '\\' then
      match readEscape rest with
      | none => none
      | some (c, rest) => readText fuel rest (read.push c)
    else if c.toNat < 32 then none
    else readText fuel rest (read.push c)

def readWord (word : String) (value : Json) (text : List Char) : Reading Json :=
  let letters := word.toList
  if text.take letters.length = letters then some (value, text.drop letters.length) else none

mutual

/-- A value in front of a text, nested at most `depth` levels. -/
def readValue (depth : Nat) (text : List Char) : Reading Json :=
  match skipBlanks text with
  | [] => none
  | c :: rest =>
    if c = '"' then
      (readText (rest.length + 1) rest #[]).map fun found => (.text found.1, found.2)
    else if c = 'n' then readWord "null" .null (c :: rest)
    else if c = 't' then readWord "true" (.bool true) (c :: rest)
    else if c = 'f' then readWord "false" (.bool false) (c :: rest)
    else if c = '[' then
      match depth with
      | 0 => none
      | depth + 1 =>
        match skipBlanks rest with
        | ']' :: rest => some (.list [], rest)
        | rest => readItems (rest.length + 1) depth rest #[]
    else if c = '\x7b' then
      match depth with
      | 0 => none
      | depth + 1 =>
        match skipBlanks rest with
        | '\x7d' :: rest => some (.object [], rest)
        | rest => readMembers (rest.length + 1) depth rest #[]
    else (readNumber (c :: rest)).map fun found => (.number found.1, found.2)
termination_by (depth, 0)

def readItems (fuel depth : Nat) (text : List Char) (read : Array Json) : Reading Json :=
  match fuel with
  | 0 => none
  | fuel + 1 =>
    match readValue depth text with
    | none => none
    | some (item, rest) =>
      match skipBlanks rest with
      | ',' :: rest => readItems fuel depth rest (read.push item)
      | ']' :: rest => some (.list (read.push item).toList, rest)
      | _ => none
termination_by (depth, fuel + 1)

def readMembers (fuel depth : Nat) (text : List Char) (read : Array (String × Json)) :
    Reading Json :=
  match fuel with
  | 0 => none
  | fuel + 1 =>
    match skipBlanks text with
    | '"' :: rest =>
      match readText (rest.length + 1) rest #[] with
      | none => none
      | some (key, rest) =>
        match skipBlanks rest with
        | ':' :: rest =>
          match readValue depth rest with
          | none => none
          | some (value, rest) =>
            match skipBlanks rest with
            | ',' :: rest => readMembers fuel depth rest (read.push (key, value))
            | '\x7d' :: rest => some (.object (read.push (key, value)).toList, rest)
            | _ => none
        | _ => none
    | _ => none
termination_by (depth, fuel + 1)

end

def maxDepth : Nat := 127

/-- The value that all the characters denote. -/
def ofChars? (text : List Char) : Option Json :=
  match readValue maxDepth text with
  | some (value, rest) => if (skipBlanks rest).isEmpty then some value else none
  | none => none

/-- The value that a whole text denotes. -/
def parse? (text : String) : Option Json := ofChars? text.toList

end Json

end PackedMatrix
