import PackedMatrix.Yaml.Cursor

namespace PackedMatrix

namespace Yaml

/-- Blanks and line breaks between two words. -/
structure Gap where
  /-- The blanks of a gap without line breaks. -/
  blanks : List Char := []
  broken : Bool := false
  /-- What the first line break stands for. -/
  first : List Char := []
  /-- What the other line breaks stand for. -/
  others : List Char := []
  deriving Repr, Inhabited

namespace Gap

/-- What a gap adds to the text. -/
def text (gap : Gap) : List Char :=
  if !gap.broken then gap.blanks
  else if gap.first != ['\n'] then gap.first ++ gap.others
  else if gap.others.isEmpty then [' ']
  else gap.others

/-- The gap up to the next word. Behind a line break no tab may stand in front of column `least`. -/
def read (least : Nat) : Nat → Gap → Cursor → Option (Gap × Cursor)
  | 0, gap, cursor => some (gap, cursor)
  | fuel + 1, gap, cursor =>
    match cursor.rest with
    | [] => some (gap, cursor)
    | c :: _ =>
      if isSpace c then
        if !gap.broken then read least fuel { gap with blanks := gap.blanks ++ [c] } (cursor.skip 1)
        else if c = '\t' ∧ cursor.column < least then none
        else read least fuel gap (cursor.skip 1)
      else if isBreak c then
        let (found, cursor) := cursor.nextLine
        let gap :=
          if gap.broken then { gap with others := gap.others ++ found }
          else { broken := true, first := found }
        read least fuel gap cursor
      else some (gap, cursor)

end Gap

/-- A mark between brackets. -/
def isFlowMark (c : Char) : Bool := [',', '[', ']', '\x7b', '\x7d'].contains c

/-- A plain scalar may start here. -/
def startsPlain (inFlow : Bool) : List Char → Bool
  | [] => false
  | c :: rest =>
    if c = '-' then
      match rest with
      | [] => true
      | next :: _ => !isSpace next
    else if c = '?' ∨ c = ':' then !inFlow && !endsWord rest
    else !(isSpace c || isBreak c || isFlowMark c || "#&*!|>\'\"%@\x60".contains c)

/-- A word of a plain scalar. Between brackets a colon may not stand directly in front of a mark. -/
def plainWord (inFlow : Bool) : List Char → Option (List Char)
  | [] => some []
  | c :: rest =>
    let beforeMark := match rest with
      | [] => false
      | next :: _ => next == '?' || isFlowMark next
    if endsWord (c :: rest) then some []
    else if inFlow && c == ':' && beforeMark then none
    else if c = ':' ∧ endsWord rest ∨ inFlow ∧ isFlowMark c then some []
    else (plainWord inFlow rest).map (c :: ·)

/-- A plain scalar in a block that is indented to column `least` at least. -/
structure PlainText where
  text : Array Char
  /-- A line break follows the last word. -/
  broken : Bool
  cursor : Cursor
  deriving Repr, Inhabited

/-- The words of a plain scalar that are left, behind `text` and a gap. -/
def readPlain (inFlow : Bool) (least : Nat) : Nat → Array Char → Gap → Cursor → Option PlainText
  | 0, _, _, _ => none
  | fuel + 1, text, gap, cursor =>
    if cursor.atDocumentMark ∨ cursor.rest.head? = some '#' then some ⟨text, gap.broken, cursor⟩
    else
      match plainWord inFlow cursor.rest with
      | none => none
      | some [] => some ⟨text, gap.broken, cursor⟩
      | some word =>
        let text := text ++ gap.text ++ word
        match Gap.read least fuel {} (cursor.skip word.length) with
        | none => none
        | some (gap, cursor) =>
          if !inFlow ∧ cursor.column < least then some ⟨text, gap.broken, cursor⟩
          else readPlain inFlow least fuel text gap cursor

end Yaml

end PackedMatrix
