namespace PackedMatrix

namespace Yaml

/-- A character that a text may hold as it is. -/
def isAllowed (c : Char) : Bool :=
  let code := c.toNat
  code == 0x9 || code == 0xa || code == 0xd || (0x20 ≤ code && code ≤ 0x7e) || code == 0x85 ||
    (0xa0 ≤ code && code ≤ 0xfffd) || 0x10000 ≤ code

def isSpace (c : Char) : Bool := c == ' ' || c == '\t'

/-- A character that ends a line. -/
def isBreak (c : Char) : Bool :=
  c == '\n' || c == '\r' || c.toNat == 0x85 || c.toNat == 0x2028 || c.toNat == 0x2029

/-- A character of a name. -/
def isWordChar (c : Char) : Bool := c.isAlphanum || c == '_' || c == '-'

def endsLine : List Char → Bool
  | [] => true
  | c :: _ => isBreak c

def endsWord : List Char → Bool
  | [] => true
  | c :: _ => isSpace c || isBreak c

/-- What is left of a text behind a place in it. -/
structure Cursor where
  rest : List Char
  /-- Octets in front of the place, in UTF-8. -/
  index : Nat := 0
  line : Nat := 0
  column : Nat := 0
  deriving Repr, Inhabited

namespace Cursor

/-- The octets of so many characters behind the place. -/
def octets (cursor : Cursor) (count : Nat) : Nat :=
  (cursor.rest.take count).foldl (fun octets c => octets + c.utf8Size) 0

/-- The place so many characters further on the same line. -/
def skip (cursor : Cursor) (count : Nat) : Cursor :=
  { cursor with
    rest := cursor.rest.drop count
    index := cursor.index + cursor.octets count
    column := cursor.column + count }

/-- The start of the next line, behind a line break of so many characters. -/
def breakLine (cursor : Cursor) (count : Nat) : Cursor :=
  { rest := cursor.rest.drop count
    index := cursor.index + cursor.octets count
    line := cursor.line + 1 }

/-- What a line break stands for, and the place behind it. Without a line break the place stays. -/
def nextLine (cursor : Cursor) : List Char × Cursor :=
  match cursor.rest with
  | '\r' :: '\n' :: _ => (['\n'], cursor.breakLine 2)
  | c :: _ =>
    if c.toNat == 0x2028 || c.toNat == 0x2029 then ([c], cursor.breakLine 1)
    else if isBreak c then (['\n'], cursor.breakLine 1)
    else ([], cursor)
  | [] => ([], cursor)

/-- The characters of one kind in front of the place, and the place behind them. -/
def takeWhile (keep : Char → Bool) (cursor : Cursor) : List Char × Cursor :=
  let taken := cursor.rest.takeWhile keep
  (taken, cursor.skip taken.length)

def skipSpaces (cursor : Cursor) : Cursor := (cursor.takeWhile isSpace).2

def skipComment (cursor : Cursor) : Cursor :=
  match cursor.rest with
  | '#' :: _ => (cursor.takeWhile (!isBreak ·)).2
  | _ => cursor

/-- The next line, if this one holds nothing more than blanks and a comment. -/
def endLine? (cursor : Cursor) : Option Cursor :=
  let cursor := cursor.skipSpaces.skipComment
  if endsLine cursor.rest then some cursor.nextLine.2 else none

/-- Three equal characters stand here, as a word of their own at the start of a line. -/
def atRule (cursor : Cursor) (mark : Char) : Bool :=
  cursor.column == 0 && cursor.rest.take 3 == [mark, mark, mark] && endsWord (cursor.rest.drop 3)

/-- A mark that starts or ends a document stands here. -/
def atDocumentMark (cursor : Cursor) : Bool := cursor.atRule '-' || cursor.atRule '.'

end Cursor

end Yaml

end PackedMatrix
