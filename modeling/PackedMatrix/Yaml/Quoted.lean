import PackedMatrix.Json.Parse
import PackedMatrix.Yaml.Scalar

namespace PackedMatrix

namespace Yaml

def readCode (count : Nat) (text : List Char) : Option Char := do
  let digits := text.take count
  if digits.length < count then none
  else
    let code ← digits.foldlM (fun value c => (Json.hexValue? c).map (value * 16 + ·)) 0
    if code.isValidChar then some (Char.ofNat code) else none

/-- The character of the escape behind a backslash, and the number of characters it is written in.
-/
def readEscape : List Char → Option (Char × Nat)
  | [] => none
  | c :: rest =>
    match c with
    | '0' => some (Char.ofNat 0, 1)
    | 'a' => some (Char.ofNat 7, 1)
    | 'b' => some (Char.ofNat 8, 1)
    | 't' => some ('\t', 1)
    | '\t' => some ('\t', 1)
    | 'n' => some ('\n', 1)
    | 'v' => some (Char.ofNat 11, 1)
    | 'f' => some (Char.ofNat 12, 1)
    | 'r' => some ('\r', 1)
    | 'e' => some (Char.ofNat 27, 1)
    | 'N' => some (Char.ofNat 0x85, 1)
    | '_' => some (Char.ofNat 0xa0, 1)
    | 'L' => some (Char.ofNat 0x2028, 1)
    | 'P' => some (Char.ofNat 0x2029, 1)
    | 'x' => (readCode 2 rest).map fun c => (c, 3)
    | 'u' => (readCode 4 rest).map fun c => (c, 5)
    | 'U' => (readCode 8 rest).map fun c => (c, 9)
    | _ => if [' ', '"', '/', '\\'].contains c then some (c, 1) else none

/-- A word between quotes. -/
structure QuotedWord where
  text : Array Char
  /-- The word ends with an escaped line break. -/
  joined : Bool
  cursor : Cursor
  deriving Repr, Inhabited

/-- The characters up to a blank, a line break or the closing quote, added to `text`. -/
def readQuotedWord (quote : Char) : Nat → Array Char → Cursor → Option QuotedWord
  | 0, _, _ => none
  | fuel + 1, text, cursor =>
    match cursor.rest with
    | [] => some ⟨text, false, cursor⟩
    | c :: rest =>
      if endsWord (c :: rest) then some ⟨text, false, cursor⟩
      else if c = quote then
        if c = '\'' ∧ rest.head? = some '\'' then
          readQuotedWord quote fuel (text.push '\'') (cursor.skip 2)
        else some ⟨text, false, cursor⟩
      else if c = '\\' ∧ quote = '"' then
        match rest with
        | [] => none
        | next :: _ =>
          if isBreak next then some ⟨text, true, (cursor.skip 1).nextLine.2⟩
          else
            match readEscape rest with
            | none => none
            | some (found, count) =>
              readQuotedWord quote fuel (text.push found) (cursor.skip (count + 1))
      else readQuotedWord quote fuel (text.push c) (cursor.skip 1)

/-- The text up to the closing quote, added to `text`, and the place behind the quote. No document
may start or end inside. -/
def readQuotedRest (quote : Char) : Nat → Array Char → Cursor → Option (Array Char × Cursor)
  | 0, _, _ => none
  | fuel + 1, text, cursor =>
    if cursor.atDocumentMark ∨ cursor.rest.isEmpty then none
    else
      match readQuotedWord quote (fuel + 1) text cursor with
      | none => none
      | some ⟨text, joined, cursor⟩ =>
        if cursor.rest.head? = some quote then some (text, cursor.skip 1)
        else
          match Gap.read 0 fuel { broken := joined } cursor with
          | none => none
          | some (gap, cursor) => readQuotedRest quote fuel (text ++ gap.text) cursor

/-- The scalar whose opening quote stands here, and the place behind it. -/
def readQuoted (quote : Char) (fuel : Nat) (cursor : Cursor) : Option (Array Char × Cursor) :=
  readQuotedRest quote fuel #[] (cursor.skip 1)

end Yaml

end PackedMatrix
