import PackedMatrix.Yaml
import PackedMatrix.Yaml.BlockText
import PackedMatrix.Yaml.Quoted
import PackedMatrix.Yaml.Tag

namespace PackedMatrix

namespace Yaml

inductive Token
  | directive (found : Directive)
  | documentStart
  | documentEnd
  | blockListStart
  | blockMapStart
  | blockEnd
  | flowListStart
  | flowListEnd
  | flowMapStart
  | flowMapEnd
  /-- A comma between brackets. -/
  | flowEntry
  /-- The dash in front of an item. -/
  | blockEntry
  | key
  | value
  | reference (name : String)
  | anchor (name : String)
  | tag (written : WrittenTag)
  | scalar (style : Style) (text : String)
  deriving DecidableEq, Repr, Inhabited

/-- A place where a key may have started. -/
structure KeyStart where
  /-- Tokens in front of the place. -/
  tokens : Nat
  index : Nat
  line : Nat
  column : Nat
  /-- Nothing but a key can stand here. -/
  required : Bool
  deriving DecidableEq, Repr, Inhabited

/-- The tokens in front of a place in a text. -/
structure TokenScan where
  cursor : Cursor
  tokens : Array Token := #[]
  /-- The columns of the open blocks, innermost first. -/
  blocks : List Nat := []
  /-- The last place of a key outside brackets and inside each open bracket, innermost first. -/
  starts : List (Option KeyStart) := [none]
  /-- A key may start here. -/
  keyAllowed : Bool := true
  deriving Repr, Inhabited

namespace TokenScan

def inFlow (scan : TokenScan) : Bool := scan.starts.length > 1

def indent (scan : TokenScan) : Option Nat := scan.blocks.head?

def emit (scan : TokenScan) (count : Nat) (token : Token) : TokenScan :=
  { scan with cursor := scan.cursor.skip count, tokens := scan.tokens.push token }

def allowKey (scan : TokenScan) (keyAllowed : Bool) : TokenScan := { scan with keyAllowed }

/-- Ends the blocks that are indented deeper than a column, or all of them. -/
def closeBlocks (scan : TokenScan) (column : Option Nat) : TokenScan :=
  if scan.inFlow then scan
  else
    let isDeeper (block : Nat) : Bool := match column with
      | some column => column < block
      | none => true
    let closed := scan.blocks.takeWhile isDeeper
    { scan with
      blocks := scan.blocks.drop closed.length
      tokens := scan.tokens ++ closed.map fun _ => Token.blockEnd }

/-- Starts a block in a column that is deeper than all open blocks, in front of token `place`. -/
def openBlock (scan : TokenScan) (column place : Nat) (token : Token) : TokenScan :=
  let isDeeper := match scan.indent with
    | some block => block < column
    | none => true
  if scan.inFlow ∨ !isDeeper then scan
  else
    { scan with
      blocks := column :: scan.blocks
      tokens := scan.tokens.insertIdxIfInBounds place token }

/-- Starts a block here; in a block this has to be a place for a key. -/
def openBlockHere (scan : TokenScan) (token : Token) : Option TokenScan :=
  if scan.inFlow then some scan
  else if scan.keyAllowed then
    some (scan.openBlock scan.cursor.column scan.tokens.size token)
  else none

/-- Gives up the innermost place of a key. -/
def dropKey (scan : TokenScan) : Option TokenScan :=
  match scan.starts with
  | some start :: starts =>
    if start.required then none else some { scan with starts := none :: starts }
  | _ => some scan

/-- Gives up the places of keys that are too far back. -/
def dropOldKeys (scan : TokenScan) : Option TokenScan := do
  let isOld (start : KeyStart) : Bool :=
    start.line < scan.cursor.line || start.index + 1024 < scan.cursor.index
  let starts ← scan.starts.mapM fun
    | none => some none
    | some start =>
      if !isOld start then some (some start) else if start.required then none else some none
  some { scan with starts }

/-- Notes this place, if a key may start here. -/
def noteKey (scan : TokenScan) : Option TokenScan :=
  if !scan.keyAllowed then some scan
  else do
    let scan ← scan.dropKey
    let start : KeyStart := {
      tokens := scan.tokens.size
      index := scan.cursor.index
      line := scan.cursor.line
      column := scan.cursor.column
      required := !scan.inFlow && scan.indent == some scan.cursor.column }
    some { scan with starts := some start :: scan.starts.drop 1 }

/-- Skips blanks, comments, line breaks and the byte order marks that start a line. A tab may not
stand where a key may start. -/
def skipGap : Nat → TokenScan → TokenScan
  | 0, scan => scan
  | fuel + 1, scan =>
    let cursor :=
      if scan.cursor.column = 0 ∧ (scan.cursor.rest.head?.map Char.toNat) = some 0xfeff then
        scan.cursor.skip 1
      else scan.cursor
    let mayTab := scan.inFlow || !scan.keyAllowed
    let cursor := (cursor.takeWhile fun c => c == ' ' || mayTab && c == '\t').2.skipComment
    match cursor.rest with
    | [] => { scan with cursor }
    | c :: _ =>
      if isBreak c then
        skipGap fuel
          { scan with cursor := cursor.nextLine.2, keyAllowed := scan.keyAllowed || !scan.inFlow }
      else { scan with cursor }

/-- A mark of documents: all blocks end in front of it. -/
def ruleToken (scan : TokenScan) (token : Token) : Option TokenScan := do
  let scan ← (scan.closeBlocks none).dropKey
  some ((scan.allowKey false).emit 3 token)

def directiveToken (fuel : Nat) (scan : TokenScan) : Option TokenScan := do
  let scan ← (scan.closeBlocks none).dropKey
  let (found, cursor) ← Directive.read fuel scan.cursor
  some { scan with cursor, keyAllowed := false, tokens := scan.tokens.push (.directive found) }

def openToken (scan : TokenScan) (token : Token) : Option TokenScan := do
  let scan ← scan.noteKey
  some ({ scan with starts := none :: scan.starts, keyAllowed := true }.emit 1 token)

def closeToken (scan : TokenScan) (token : Token) : Option TokenScan := do
  let scan ← scan.dropKey
  let starts := if scan.inFlow then scan.starts.drop 1 else scan.starts
  some ({ scan with starts, keyAllowed := false }.emit 1 token)

def flowEntryToken (scan : TokenScan) : Option TokenScan := do
  let scan ← scan.dropKey
  some ((scan.allowKey true).emit 1 .flowEntry)

def blockEntryToken (scan : TokenScan) : Option TokenScan := do
  let scan ← (← scan.openBlockHere .blockListStart).dropKey
  some ((scan.allowKey true).emit 1 .blockEntry)

def keyToken (scan : TokenScan) : Option TokenScan := do
  let scan ← (← scan.openBlockHere .blockMapStart).dropKey
  some ((scan.allowKey !scan.inFlow).emit 1 .key)

/-- A colon. It makes a key of what follows the last place of one. -/
def valueToken (scan : TokenScan) : Option TokenScan :=
  match scan.starts with
  | some start :: starts =>
    let tokens := scan.tokens.insertIdxIfInBounds start.tokens .key
    let scan := { scan with tokens }.openBlock start.column start.tokens .blockMapStart
    some ({ scan with starts := none :: starts, keyAllowed := false }.emit 1 .value)
  | _ => do
    let scan ← scan.openBlockHere .blockMapStart
    some ((scan.allowKey !scan.inFlow).emit 1 .value)

/-- A reference or an anchor. -/
def nameToken (scan : TokenScan) (token : String → Token) : Option TokenScan := do
  let scan ← scan.noteKey
  let (name, cursor) := (scan.cursor.skip 1).takeWhile isWordChar
  let ends := match cursor.rest with
    | c :: _ => endsWord [c] || "?:,]\x7d%@\x60".contains c
    | [] => true
  if name.isEmpty ∨ !ends then none
  else
    some { scan with
      cursor, keyAllowed := false, tokens := scan.tokens.push (token (String.ofList name)) }

def tagToken (fuel : Nat) (scan : TokenScan) : Option TokenScan := do
  let scan ← scan.noteKey
  let (tag, cursor) ← WrittenTag.read scan.inFlow fuel scan.cursor
  some { scan with cursor, keyAllowed := false, tokens := scan.tokens.push (.tag tag) }

def emitScalar (scan : TokenScan) (style : Style) (text : Array Char) (cursor : Cursor)
    (keyAllowed : Bool) : TokenScan :=
  { scan with
    cursor, keyAllowed, tokens := scan.tokens.push (.scalar style (String.ofList text.toList)) }

def blockToken (fuel : Nat) (scan : TokenScan) (folded : Bool) : Option TokenScan := do
  let scan ← scan.dropKey
  let (text, cursor) ← readBlock folded scan.indent fuel scan.cursor
  some (scan.emitScalar (if folded then .folded else .literal) text cursor true)

def quotedToken (fuel : Nat) (scan : TokenScan) (quote : Char) : Option TokenScan := do
  let scan ← scan.noteKey
  let (text, cursor) ← readQuoted quote fuel scan.cursor
  some (scan.emitScalar .quoted text cursor false)

def plainToken (fuel : Nat) (scan : TokenScan) : Option TokenScan := do
  let scan ← scan.noteKey
  let least := match scan.indent with
    | some column => column + 1
    | none => 0
  let found ← readPlain scan.inFlow least fuel #[] {} scan.cursor
  some (scan.emitScalar .plain found.text found.cursor found.broken)

/-- Adds the token that starts with a character, in front of a text no longer than `fuel`. -/
def nextToken (fuel : Nat) (scan : TokenScan) (c : Char) (rest : List Char) : Option TokenScan :=
  if scan.cursor.column = 0 ∧ c = '%' then scan.directiveToken fuel
  else if scan.cursor.atRule '-' then scan.ruleToken .documentStart
  else if scan.cursor.atRule '.' then scan.ruleToken .documentEnd
  else if c = '[' then scan.openToken .flowListStart
  else if c = '\x7b' then scan.openToken .flowMapStart
  else if c = ']' then scan.closeToken .flowListEnd
  else if c = '\x7d' then scan.closeToken .flowMapEnd
  else if c = ',' then scan.flowEntryToken
  else if c = '-' ∧ endsWord rest then scan.blockEntryToken
  else if c = '?' ∧ (scan.inFlow ∨ endsWord rest) then scan.keyToken
  else if c = ':' ∧ (scan.inFlow ∨ endsWord rest) then scan.valueToken
  else if c = '*' then scan.nameToken .reference
  else if c = '&' then scan.nameToken .anchor
  else if c = '!' then scan.tagToken fuel
  else if c = '|' ∧ !scan.inFlow then scan.blockToken fuel false
  else if c = '>' ∧ !scan.inFlow then scan.blockToken fuel true
  else if c = '\'' ∨ c = '"' then scan.quotedToken fuel c
  else if startsPlain scan.inFlow (c :: rest) then scan.plainToken fuel
  else none

/-- Adds the tokens of the text that is left, which is shorter than `fuel`. -/
def finish : Nat → TokenScan → Option TokenScan
  | 0, _ => none
  | fuel + 1, scan => do
    let scan ← (scan.skipGap fuel).dropOldKeys
    let scan := scan.closeBlocks (some scan.cursor.column)
    match scan.cursor.rest with
    | [] => (scan.closeBlocks none).dropKey
    | c :: rest => finish fuel (← scan.nextToken (fuel + 1) c rest)

end TokenScan

/-- The tokens of a text. Characters that a text may not hold spoil all of it. -/
def tokens? (text : String) : Option (List Token) :=
  let chars := text.toList
  if chars.all isAllowed then
    (TokenScan.finish (chars.length + 2) { cursor := { rest := chars } }).map (·.tokens.toList)
  else none

end Yaml

end PackedMatrix
