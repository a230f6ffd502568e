import PackedMatrix.Decimal

namespace PackedMatrix

/-- A JSON number. -/
inductive JsonNumber
  /-- A whole number that is not negative. -/
  | natural (value : Nat)
  /-- The negative of a positive whole number. -/
  | negative (value : Nat)
  | float (cell : Cell)
  /-- A number too large for a cell. -/
  | huge
  deriving DecidableEq, Repr

/-- A JSON value. -/
inductive Json
  | null
  | bool (value : Bool)
  | number (value : JsonNumber)
  | text (value : String)
  | list (items : List Json)
  | object (members : List (String × Json))
  deriving Repr, Inhabited

namespace Json

def ofNat (value : Nat) : Json := .number (.natural value)

def ofText? : Option String → Json
  | some value => .text value
  | none => .null

def ofNat? : Option Nat → Json
  | some value => ofNat value
  | none => .null

/-- A finite cell as a number; other cells have no number. -/
def ofCell (cell : Cell) : Json :=
  if cell.isFinite then .number (.float cell) else .null

def hexDigit (digit : Nat) : Char :=
  ['0', '1', '2', '3', '4', '5', '6', '7', '8', '9', 'a', 'b', 'c', 'd', 'e', 'f'].getD digit '0'

/-- The text of a character inside quotes. -/
def escape (c : Char) : List Char :=
  if c = '"' then ['\\', '"']
  else if c = '\\' then ['\\', '\\']
  else if c = '\n' then ['\\', 'n']
  else if c = '\r' then ['\\', 'r']
  else if c = '\t' then ['\\', 't']
  else if c.toNat = 8 then ['\\', 'b']
  else if c.toNat = 12 then ['\\', 'f']
  else if c.toNat < 32 then
    ['\\', 'u', '0', '0', hexDigit (c.toNat / 16), hexDigit (c.toNat % 16)]
  else [c]

def quote (value : String) : String :=
  String.ofList ('"' :: value.toList.flatMap escape ++ ['"'])

def JsonNumber.render : JsonNumber → String
  | .natural value => toString value
  | .negative value => "-" ++ toString value
  | .float cell => (Decimal.shortest? cell).getD "null"
  | .huge => "null"

/-- Texts between two marks, separated by commas. -/
def enclose (opening closing : String) (items : List String) : String :=
  opening ++ ",".intercalate items ++ closing

theorem sizeOf_value_lt {members : List (String × Json)} {member : String × Json}
    (h : member ∈ members) : sizeOf member.2 < sizeOf members := by
  have := List.sizeOf_lt_of_mem h
  cases member
  simp only [Prod.mk.sizeOf_spec] at this ⊢
  omega

/-- The text without any blanks. -/
def compact : Json → String
  | null => "null"
  | bool value => if value then "true" else "false"
  | number value => JsonNumber.render value
  | text value => quote value
  | list items => enclose "[" "]" (items.map fun item => item.compact)
  | object members =>
    enclose "\x7b" "\x7d" (members.map fun member => quote member.1 ++ ":" ++ member.2.compact)
decreasing_by
  · have := List.sizeOf_lt_of_mem ‹_›
    simp only [Json.list.sizeOf_spec]
    omega
  · have := sizeOf_value_lt ‹_›
    simp only [Json.object.sizeOf_spec]
    omega

/-- A line break followed by two blanks for each level. -/
def newLine (level : Nat) : String := "\n" ++ String.ofList (List.replicate (2 * level) ' ')

/-- Items on lines of their own, or nothing between the marks if there are none. -/
def block (level : Nat) (opening closing : String) (items : List String) : String :=
  if items.isEmpty then opening ++ closing
  else
    opening ++ ",".intercalate (items.map fun item => newLine (level + 1) ++ item) ++
      newLine level ++ closing

/-- The text with one item on each line, inside `level` others. -/
def pretty (level : Nat) : Json → String
  | null => "null"
  | bool value => if value then "true" else "false"
  | number value => JsonNumber.render value
  | text value => quote value
  | list items => block level "[" "]" (items.map fun item => item.pretty (level + 1))
  | object members =>
    block level "\x7b" "\x7d"
      (members.map fun member => quote member.1 ++ ": " ++ member.2.pretty (level + 1))
termination_by value => sizeOf value
decreasing_by
  · have := List.sizeOf_lt_of_mem ‹_›
    simp only [Json.list.sizeOf_spec]
    omega
  · have := sizeOf_value_lt ‹_›
    simp only [Json.object.sizeOf_spec]
    omega

def get? (value : Json) (key : String) : Option Json :=
  match value with
  | object members => (members.find? (·.1 == key)).map Prod.snd
  | _ => none

def asNat? : Json → Option Nat
  | number (.natural value) => some value
  | _ => none

def asBool? : Json → Option Bool
  | bool value => some value
  | _ => none

def asText? : Json → Option String
  | text value => some value
  | _ => none

def asList? : Json → Option (List Json)
  | list items => some items
  | _ => none

/-- A number as a cell; whole numbers are rounded to the nearest. -/
def asCell? : Json → Option Cell
  | number (.natural value) => some (.ofFloat (UInt64.ofNat value).toFloat)
  | number (.negative value) => some (.ofFloat (-(UInt64.ofNat value).toFloat))
  | number (.float cell) => some cell
  | _ => none

end Json

end PackedMatrix
