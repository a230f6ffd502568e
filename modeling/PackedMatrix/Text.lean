namespace PackedMatrix

namespace Text

/-- A character that shows as a blank, or ends a line. -/
def isBlank (c : Char) : Bool :=
  let code := c.toNat
  (9 ≤ code && code ≤ 13) || (8192 ≤ code && code ≤ 8202) ||
    [32, 133, 160, 5760, 8232, 8233, 8239, 8287, 12288].contains code

def dropBlanks (text : List Char) : List Char := text.dropWhile isBlank

def dropLastBlanks (text : List Char) : List Char := (dropBlanks text.reverse).reverse

def trim (text : String) : String := String.ofList (dropLastBlanks (dropBlanks text.toList))

/-- The lines of a text with a line break behind it. A carriage return in front of a line break
belongs to it. -/
def linesOf (text : String) : List String :=
  (text.splitOn "\n").map fun line => (line.dropSuffix "\r").copy

/-- Fills a text up with blanks on its right. -/
def padRight (width : Nat) (text : String) : String :=
  text ++ String.ofList (List.replicate (width - text.length) ' ')

/-- A number with at least so many digits. -/
def padZeros (width value : Nat) : String :=
  let digits := toString value
  String.ofList (List.replicate (width - digits.length) '0') ++ digits

end Text

end PackedMatrix
