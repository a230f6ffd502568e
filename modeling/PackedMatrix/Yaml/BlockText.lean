import PackedMatrix.Yaml.Cursor

namespace PackedMatrix

namespace Yaml

/-- What becomes of the line breaks behind the last line. -/
inductive Tail
  /-- All are dropped. -/
  | strip
  /-- The first one is kept. -/
  | clip
  | keep
  deriving DecidableEq, Repr

/-- What the mark of a block says. -/
structure BlockHeader where
  tail : Tail := .clip
  /-- Columns from the indentation of the outer block. -/
  deeper : Option Nat := none

namespace BlockHeader

def tail? : List Char → Option Tail
  | '+' :: _ => some .keep
  | '-' :: _ => some .strip
  | _ => none

/-- A digit in front of a text; zero is refused. -/
def deeper? : List Char → Option (Option Nat)
  | c :: _ =>
    if c = '0' then none else some (if c.isDigit then some (c.toNat - '0'.toNat) else none)
  | [] => some none

/-- The header in front of a text, and its length. Its two parts may come in any order. -/
def read (text : List Char) : Option (BlockHeader × Nat) :=
  match tail? text with
  | some tail =>
    (deeper? (text.drop 1)).map fun deeper => (⟨tail, deeper⟩, 1 + deeper.toList.length)
  | none =>
    (deeper? text).map fun deeper =>
      match deeper, tail? (text.drop 1) with
      | some count, some tail => (⟨tail, some count⟩, 2)
      | some count, none => (⟨.clip, some count⟩, 1)
      | none, _ => ({}, 0)

end BlockHeader

/-- The start of a line that is not empty, or of one that the block does not hold. -/
structure LineStart where
  /-- What the line breaks of the empty lines stand for. -/
  breaks : Array Char := #[]
  /-- The largest column that a line reached. -/
  widest : Nat := 0
  cursor : Cursor
  deriving Repr, Inhabited

/-- Skips empty lines and indentation, up to column `indent` if that is known already. No tab may
stand in the indentation. -/
def skipEmptyLines (indent : Option Nat) : Nat → LineStart → Option LineStart
  | 0, found => some found
  | fuel + 1, found =>
    let spaces := (found.cursor.rest.takeWhile (· == ' ')).length
    let cursor := match indent with
      | none => found.cursor.skip spaces
      | some indent => found.cursor.skip (min spaces (indent - found.cursor.column))
    let inIndent := match indent with
      | none => true
      | some indent => cursor.column < indent
    let widest := max found.widest cursor.column
    match cursor.rest with
    | [] => some { found with widest, cursor }
    | c :: _ =>
      if inIndent ∧ c = '\t' then none
      else if !isBreak c then some { found with widest, cursor }
      else
        let (ending, cursor) := cursor.nextLine
        skipEmptyLines indent fuel ⟨found.breaks ++ ending, widest, cursor⟩

/-- The part of a block that was read. -/
structure BlockText where
  text : Array Char := #[]
  /-- What the break of the last line stands for. -/
  ending : List Char := []
  /-- What the breaks of the empty lines behind it stand for. -/
  breaks : Array Char := #[]
  /-- The last line starts with a blank. -/
  spaced : Bool := false
  cursor : Cursor
  deriving Repr, Inhabited

/-- The lines that start in column `indent`, added to what was read. -/
def readLines (folded : Bool) (indent : Nat) : Nat → BlockText → Option BlockText
  | 0, _ => none
  | fuel + 1, block =>
    match block.cursor.rest with
    | [] => some block
    | c :: _ =>
      if block.cursor.column ≠ indent then some block
      else
        let spaced := isSpace c
        let joins := folded && block.ending == ['\n'] && !block.spaced && !spaced
        let ending :=
          if !joins then block.ending else if block.breaks.isEmpty then [' '] else []
        let (line, cursor) := block.cursor.takeWhile (!isBreak ·)
        let text := block.text ++ ending ++ block.breaks ++ line
        let (ending, cursor) := cursor.nextLine
        match skipEmptyLines (some indent) fuel { cursor } with
        | none => none
        | some start =>
          readLines folded indent fuel ⟨text, ending, start.breaks, spaced, start.cursor⟩

/-- The block whose mark stands here, inside a block that is indented to column `outer`, and the
place behind it. -/
def readBlock (folded : Bool) (outer : Option Nat) (fuel : Nat) (cursor : Cursor) :
    Option (Array Char × Cursor) := do
  let (header, count) ← BlockHeader.read (cursor.rest.drop 1)
  let cursor ← (cursor.skip (count + 1)).endLine?
  let indent := header.deeper.map (outer.getD 0 + ·)
  let start ← skipEmptyLines indent fuel { cursor }
  let least := match outer with
    | some column => column + 1
    | none => 1
  let indent := indent.getD (max start.widest least)
  let block ←
    readLines folded indent fuel { breaks := start.breaks, cursor := start.cursor }
  let text := match header.tail with
    | .strip => block.text
    | .clip => block.text ++ block.ending
    | .keep => block.text ++ block.ending ++ block.breaks
  some (text, block.cursor)

end Yaml

end PackedMatrix
