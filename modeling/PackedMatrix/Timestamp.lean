import PackedMatrix.Text

namespace PackedMatrix

/-- Why a text is not a time. -/
inductive TimeError
  | outOfRange
  | impossible
  | invalid
  | tooShort
  | tooLong
  deriving DecidableEq, Repr

def TimeError.message : TimeError → String
  | outOfRange => "input is out of range"
  | impossible => "no possible date and time matching input"
  | invalid => "input contains invalid characters"
  | tooShort => "premature end of input"
  | tooLong => "trailing input"

/-- A day of the calendar. -/
structure Day where
  year : Int
  month : Nat
  day : Nat
  deriving DecidableEq, Repr

namespace Day

def isLeapYear (year : Int) : Bool :=
  year % 4 == 0 && (year % 100 != 0 || year % 400 == 0)

def daysInMonth (year : Int) (month : Nat) : Nat :=
  if month = 2 then if isLeapYear year then 29 else 28
  else if month = 4 ∨ month = 6 ∨ month = 9 ∨ month = 11 then 30
  else 31

def minYear : Int := -262143

def maxYear : Int := 262142

def isYear (year : Int) : Bool := minYear ≤ year && year ≤ maxYear

/-- The day exists and its year is in range. -/
def isValid (day : Day) : Bool :=
  isYear day.year && 1 ≤ day.month && day.month ≤ 12 && 1 ≤ day.day &&
    day.day ≤ daysInMonth day.year day.month

/-- Days since the first of January 1970. Years are counted from March, so that a leap day is the
last day of its year, and 400 years have 146097 days. -/
def number (day : Day) : Int :=
  let year := if day.month ≤ 2 then day.year - 1 else day.year
  let era := year / 400
  let place := year % 400
  let month : Int := if day.month > 2 then day.month - 3 else day.month + 9
  let inYear := (153 * month + 2) / 5 + day.day - 1
  era * 146097 + place * 365 + place / 4 - place / 100 + inYear - 719468

/-- The day with so many days between it and the first of January 1970. -/
def ofNumber (number : Int) : Day :=
  let shifted := number + 719468
  let era := shifted / 146097
  let inEra := shifted % 146097
  let place := (inEra - inEra / 1460 + inEra / 36524 - inEra / 146096) / 365
  let inYear := inEra - (365 * place + place / 4 - place / 100)
  let month := (5 * inYear + 2) / 153
  let day := (inYear - (153 * month + 2) / 5 + 1).toNat
  let month := if month < 10 then (month + 3).toNat else (month - 9).toNat
  ⟨place + era * 400 + (if month ≤ 2 then 1 else 0), month, day⟩

end Day

/-- A point in time, in UTC. -/
structure Timestamp where
  /-- Seconds since the start of 1970. -/
  seconds : Int
  /-- Nanoseconds behind the second; a leap second goes on behind the first thousand million. -/
  nanos : Nat
  deriving DecidableEq, Repr, Inhabited

namespace Timestamp

def secondsPerDay : Int := 86400

/-- A value found at the front of a text, and the rest of the text. -/
abbrev Found (α : Type) : Type := Except TimeError (α × List Char)

def digit (c : Char) : Nat := c.toNat - '0'.toNat

/-- A number of at least one and at most `width` digits. -/
def readNumber (width : Nat) (text : List Char) : Found Nat :=
  match text with
  | [] => .error .tooShort
  | first :: _ =>
    if first.isDigit then
      let digits := (text.take width).takeWhile Char.isDigit
      .ok (digits.foldl (fun value c => value * 10 + digit c) 0, text.drop digits.length)
    else .error .invalid

def readYear : List Char → Found Int
  | '-' :: rest => (readNumber rest.length rest).map fun found => (-(found.1 : Int), found.2)
  | '+' :: rest => (readNumber rest.length rest).map fun found => ((found.1 : Int), found.2)
  | text => (readNumber 4 text).map fun found => ((found.1 : Int), found.2)

/-- A mark that has to come next, blanks aside. -/
def readMark (mark : Char) (text : List Char) : Except TimeError (List Char) :=
  match Text.dropBlanks text with
  | [] => .error .tooShort
  | c :: rest => if c = mark then .ok rest else .error .invalid

/-- A number of one or two digits inside a range, blanks aside. -/
def readField (low high : Nat) (text : List Char) : Found Nat :=
  match readNumber 2 (Text.dropBlanks text) with
  | .error error => .error error
  | .ok (value, rest) =>
    if low ≤ value ∧ value ≤ high then .ok (value, rest) else .error .outOfRange

/-- A fraction of a second in nanoseconds; digits behind the ninth do not count. -/
def readFraction : List Char → Found Nat
  | '.' :: rest =>
    match readNumber 9 rest with
    | .error error => .error error
    | .ok (value, after) =>
      .ok (value * Nat.pow 10 (9 - (rest.length - after.length)), after.dropWhile Char.isDigit)
  | text => .ok (0, text)

/-- What a text that does not start with two digits lacks. Its length counts in UTF-8. -/
def missingDigits : List Char → TimeError
  | [c] => if c.utf8Size < 2 then .tooShort else .invalid
  | [] => .tooShort
  | _ => .invalid

/-- The minutes of an offset behind its hours. -/
def readOffsetMinutes : List Char → Found Nat
  | first :: second :: rest =>
    if first.isDigit ∧ second.isDigit then
      if digit first > 5 then .error .outOfRange else .ok (digit first * 10 + digit second, rest)
    else .error .invalid
  | text => .error (missingDigits text)

/-- The seconds of an offset behind its sign. -/
def readOffsetSize : List Char → Found Int
  | first :: second :: rest =>
    if first.isDigit ∧ second.isDigit then
      let hours := digit first * 10 + digit second
      match readOffsetMinutes (rest.dropWhile fun c => c == ':' || Text.isBlank c) with
      | .error error => .error error
      | .ok (minutes, rest) => .ok (((hours * 60 + minutes) * 60 : Nat), rest)
    else .error .invalid
  | text => .error (missingDigits text)

/-- The seconds by which the clocks of a zone are ahead of UTC. -/
def readOffset (text : List Char) : Found Int :=
  if (String.ofList (text.take 3)).map Char.toUpper = "UTC" then .ok (0, text.drop 3)
  else
    match text with
    | [] => .error .tooShort
    | 'Z' :: rest => .ok (0, rest)
    | 'z' :: rest => .ok (0, rest)
    | '+' :: rest => readOffsetSize rest
    | '-' :: rest => (readOffsetSize rest).map fun found => (-found.1, found.2)
    | '−' :: rest => (readOffsetSize rest).map fun found => (-found.1, found.2)
    | _ => .error .invalid

/-- A date; whether the month has such a day is not looked at here. -/
def readDay (text : List Char) : Except TimeError (Day × List Char) := do
  let (year, text) ← readYear (Text.dropBlanks text)
  if year < -2147483648 ∨ year > 2147483647 then throw .outOfRange
  let (month, text) ← readField 1 12 (← readMark '-' text)
  let (day, text) ← readField 1 31 (← readMark '-' text)
  pure (⟨year, month, day⟩, text)

/-- A time of day as seconds and nanoseconds; second 60 is a leap second. -/
def readClock (text : List Char) : Except TimeError ((Nat × Nat) × List Char) := do
  let (hour, text) ← readField 0 23 text
  let (minute, text) ← readField 0 59 (← readMark ':' text)
  let (second, text) ← readField 0 60 (← readMark ':' text)
  let (nanos, text) ← readFraction text
  let leap := if second = 60 then 1 else 0
  pure (((hour * 60 + minute) * 60 + second - leap, nanos + leap * 1000000000), text)

/-- The point in time at a day and a clock time of a zone. -/
def ofParts (day : Day) (second nanos : Nat) (offset : Int) : Except TimeError Timestamp :=
  if !day.isValid then .error .outOfRange
  else if offset ≤ -secondsPerDay ∨ secondsPerDay ≤ offset then .error .outOfRange
  else
    let seconds := day.number * secondsPerDay + second - offset
    if Day.isYear (Day.ofNumber (seconds / secondsPerDay)).year then .ok ⟨seconds, nanos⟩
    else .error .impossible

/-- The point in time that a text denotes: a date, a clock time and the offset of the zone. -/
def read (text : String) : Except TimeError Timestamp := do
  let (day, text) ← readDay text.toList
  let text ← match text with
    | [] => throw .tooShort
    | c :: rest => if c = 'T' ∨ c = 't' ∨ c = ' ' then pure rest else throw .invalid
  let ((second, nanos), text) ← readClock text
  let (offset, text) ← readOffset (Text.dropBlanks text)
  if !(Text.dropBlanks text).isEmpty then throw .tooLong
  ofParts day second nanos offset

def renderYear (year : Int) : String :=
  if year < 0 then "-" ++ Text.padZeros 4 year.natAbs
  else if year > 9999 then "+" ++ Text.padZeros 4 year.natAbs
  else Text.padZeros 4 year.natAbs

/-- The digits of a fraction of a second: none, or groups of three as few as needed. -/
def renderFraction (nanos : Nat) : String :=
  if nanos = 0 then ""
  else if nanos % 1000000 = 0 then "." ++ Text.padZeros 3 (nanos / 1000000)
  else if nanos % 1000 = 0 then "." ++ Text.padZeros 6 (nanos / 1000)
  else "." ++ Text.padZeros 9 nanos

/-- Date and clock time in UTC, without the mark for it. -/
def renderPlain (time : Timestamp) : String :=
  let day := Day.ofNumber (time.seconds / secondsPerDay)
  let second := (time.seconds % secondsPerDay).toNat
  let leap := time.nanos / 1000000000
  s!"{renderYear day.year}-{Text.padZeros 2 day.month}-{Text.padZeros 2 day.day}T" ++
    s!"{Text.padZeros 2 (second / 3600)}:{Text.padZeros 2 (second / 60 % 60)}:" ++
    Text.padZeros 2 (second % 60 + leap) ++ renderFraction (time.nanos % 1000000000)

/-- The text of a time as it is stored. -/
def render (time : Timestamp) : String := time.renderPlain ++ "Z"

/-- The text of a time with the offset of UTC. -/
def renderOffset (time : Timestamp) : String := time.renderPlain ++ "+00:00"

end Timestamp

end PackedMatrix
