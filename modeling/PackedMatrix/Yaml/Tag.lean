import PackedMatrix.Json.Parse
import PackedMatrix.Yaml.Cursor

namespace PackedMatrix

namespace Yaml

/-- Handles with the octets that they stand for. -/
abbrev Handles := List (String × List UInt8)

/-- A tag as it is written. Without a handle the suffix is the whole tag. -/
structure WrittenTag where
  handle : String
  /-- Octets that need not be those of characters. -/
  suffix : List UInt8
  deriving DecidableEq, Repr, Inhabited

namespace WrittenTag

/-- A character of a tag; some marks are allowed only in a tag that is written in full. -/
def isTagChar (full : Bool) (c : Char) : Bool :=
  isWordChar c || ";/?:@&=+$.%!~*'()".contains c || full && [',', '[', ']'].contains c

/-- The octet that a percent sign and two digits stand for. -/
def octet? : List Char → Option Nat
  | '%' :: high :: low :: _ => do
    let high ← Json.hexValue? high
    let low ← Json.hexValue? low
    some (high * 16 + low)
  | _ => none

/-- The number of octets of a character with this first octet. -/
def octetCount? (first : Nat) : Option Nat :=
  if first < 0x80 then some 1
  else if first < 0xc0 then none
  else if first < 0xe0 then some 2
  else if first < 0xf0 then some 3
  else if first < 0xf8 then some 4
  else none

def readTail : Nat → List Char → Option (List Nat)
  | 0, _ => some []
  | count + 1, text => do
    let octet ← octet? text
    if octet < 0x80 ∨ octet ≥ 0xc0 then none
    else
      let others ← readTail count (text.drop 3)
      some (octet :: others)

/-- The written octets in front of a text that have the form of one character. -/
def readOctets (text : List Char) : Option (List UInt8) := do
  let first ← octet? text
  let count ← octetCount? first
  let tail ← readTail (count - 1) (text.drop 3)
  some ((first :: tail).map UInt8.ofNat)

/-- The characters of a tag in front of the place, added to `octets`. -/
def readRest (full : Bool) : Nat → Array UInt8 → Cursor → Option (Array UInt8 × Cursor)
  | 0, octets, cursor => some (octets, cursor)
  | fuel + 1, octets, cursor =>
    match cursor.rest with
    | [] => some (octets, cursor)
    | c :: _ =>
      if !isTagChar full c then some (octets, cursor)
      else if c = '%' then
        match readOctets cursor.rest with
        | none => none
        | some found => readRest full fuel (octets ++ found) (cursor.skip (3 * found.length))
      else readRest full fuel (octets.push c.toUInt8) (cursor.skip 1)

/-- The octets in front of the first one that is zero. -/
def untilZero (octets : List UInt8) : List UInt8 := octets.takeWhile (· ≠ 0)

/-- The characters of a tag in front of the place; there has to be one. -/
def readChars (full : Bool) (fuel : Nat) (cursor : Cursor) : Option (List UInt8 × Cursor) := do
  let (found, rest) ← readRest full fuel #[] cursor
  if rest.index = cursor.index then none else some (untilZero found.toList, rest)

/-- The characters of a handle in front of the place: a mark, a name and perhaps another mark. -/
def readHandle (cursor : Cursor) : Option (List Char × Cursor) :=
  match cursor.rest with
  | '!' :: _ =>
    let (name, cursor) := (cursor.skip 1).takeWhile isWordChar
    match cursor.rest with
    | '!' :: _ => some ('!' :: name ++ ['!'], cursor.skip 1)
    | _ => some ('!' :: name, cursor)
  | _ => none

/-- A tag whose first mark stands here, and the place behind it. -/
def readWritten (fuel : Nat) (cursor : Cursor) : Option (WrittenTag × Cursor) := do
  match cursor.rest with
  | '!' :: '<' :: _ =>
    let (suffix, cursor) ← readChars true fuel (cursor.skip 2)
    if cursor.rest.head? = some '>' then some (⟨"", suffix⟩, cursor.skip 1) else none
  | _ =>
    let (handle, cursor) ← readHandle cursor
    if handle.length > 1 ∧ handle.getLast? = some '!' then
      let (suffix, cursor) ← readChars false fuel cursor
      some (⟨String.ofList handle, suffix⟩, cursor)
    else
      let (found, cursor) ← readRest false fuel #[] cursor
      let suffix := untilZero ((handle.drop 1).map Char.toUInt8 ++ found.toList)
      some (if suffix.isEmpty then ⟨"", [0x21]⟩ else ⟨"!", suffix⟩, cursor)

/-- A tag with what has to follow it: a blank, or between brackets perhaps a comma. -/
def read (inFlow : Bool) (fuel : Nat) (cursor : Cursor) : Option (WrittenTag × Cursor) := do
  let (tag, cursor) ← readWritten fuel cursor
  if endsWord cursor.rest ∨ inFlow ∧ cursor.rest.head? = some ',' then some (tag, cursor) else none

/-- The tag in full. The handle has to be known. -/
def resolve? (handles : Handles) (tag : WrittenTag) : Option (List UInt8) :=
  if tag.handle.isEmpty then some tag.suffix
  else (handles.find? (·.1 == tag.handle)).map fun found => found.2 ++ tag.suffix

end WrittenTag

def typeTag : String := "tag:yaml.org,2002:"

/-- The handles that every document knows. -/
def commonHandles : Handles := [("!", [0x21]), ("!!", typeTag.toUTF8.toList)]

/-- What a line that starts with a percent sign says about the document behind it. -/
inductive Directive
  | version (major minor : Nat)
  | handle (name : String) (stands : List UInt8)
  deriving DecidableEq, Repr, Inhabited

namespace Directive

def readNumber (cursor : Cursor) : Option (Nat × Cursor) :=
  let (digits, cursor) := cursor.takeWhile Char.isDigit
  if digits.isEmpty ∨ digits.length > 9 then none
  else some (digits.foldl (fun value c => value * 10 + (c.toNat - '0'.toNat)) 0, cursor)

def readVersion (cursor : Cursor) : Option (Directive × Cursor) := do
  let (major, cursor) ← readNumber cursor.skipSpaces
  if cursor.rest.head? = some '.' then
    let (minor, cursor) ← readNumber (cursor.skip 1)
    some (version major minor, cursor)
  else none

def readHandle (fuel : Nat) (cursor : Cursor) : Option (Directive × Cursor) := do
  let (name, cursor) ← WrittenTag.readHandle cursor.skipSpaces
  let behind := cursor.skipSpaces
  if name.length > 1 ∧ name.getLast? ≠ some '!' ∨ behind.index = cursor.index then none
  else
    let (stands, cursor) ← WrittenTag.readChars true fuel behind
    if endsWord cursor.rest then some (handle (String.ofList name) stands, cursor) else none

/-- The directive whose percent sign stands here, and the start of the next line. -/
def read (fuel : Nat) (cursor : Cursor) : Option (Directive × Cursor) := do
  let (name, cursor) := (cursor.skip 1).takeWhile isWordChar
  if !endsWord cursor.rest then none
  else
    let (found, cursor) ←
      if name = "YAML".toList then readVersion cursor
      else if name = "TAG".toList then readHandle fuel cursor
      else none
    let cursor ← cursor.endLine?
    some (found, cursor)

end Directive

end Yaml

end PackedMatrix
