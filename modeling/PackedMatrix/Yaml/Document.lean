import PackedMatrix.Yaml
import PackedMatrix.Yaml.Token

namespace PackedMatrix

namespace Yaml

/-- The tokens that are left, and the numbers of the anchors that were read. -/
structure Reading where
  tokens : List Token
  names : List (String × Nat) := []
  deriving Repr, Inhabited

namespace Reading

def goOn (reading : Reading) (tokens : List Token) : Reading := { reading with tokens }

/-- The number of a new anchor, which is the number of names so far. A name may be used again. -/
def name (reading : Reading) (name : String) : Nat × Reading :=
  let number := reading.names.length
  let others := reading.names.filter (·.1 != name)
  (number, { reading with names := (name, number) :: others })

def isAt (reading : Reading) (tokens : List Token) : Bool :=
  match reading.tokens with
  | token :: _ => tokens.contains token
  | [] => false

end Reading

/-- The tag and the anchor in front of a value, in any order. -/
def readMarks (handles : Handles) (reading : Reading) : Option (Marks × Reading) :=
  let named (name : String) (tag : Option (List UInt8)) (rest : List Token) : Marks × Reading :=
    let (number, reading) := (reading.goOn rest).name name
    ({ tag, anchor := some number }, reading)
  match reading.tokens with
  | .anchor name :: .tag tag :: rest =>
    (tag.resolve? handles).map fun tag => named name (some tag) rest
  | .tag tag :: .anchor name :: rest =>
    (tag.resolve? handles).map fun tag => named name (some tag) rest
  | .anchor name :: rest => some (named name none rest)
  | .tag tag :: rest =>
    (tag.resolve? handles).map fun tag => ({ tag := some tag }, reading.goOn rest)
  | _ => some ({}, reading)

mutual

/-- A value. A block may stand only outside brackets, and the items of a list that is indented like
its key only behind a key. -/
def readValue (handles : Handles) (block loose : Bool) :
    Nat → Reading → Option (Yaml × Reading)
  | 0, _ => none
  | fuel + 1, reading =>
    match reading.tokens with
    | .reference name :: rest =>
      (reading.names.find? (·.1 == name)).map fun found => (.reference found.2, reading.goOn rest)
    | _ =>
      match readMarks handles reading with
      | none => none
      | some (marks, reading) =>
        match reading.tokens with
        | .scalar style text :: rest =>
          some (.scalar style text marks, reading.goOn rest)
        | .flowListStart :: rest => readFlowItems handles true marks [] fuel (reading.goOn rest)
        | .flowMapStart :: rest => readFlowMembers handles true marks [] fuel (reading.goOn rest)
        | token :: rest =>
          if block ∧ token = .blockListStart then
            readBlockItems handles marks [] fuel (reading.goOn rest)
          else if block ∧ token = .blockMapStart then
            readBlockMembers handles marks [] fuel (reading.goOn rest)
          else if loose ∧ token = .blockEntry then readLooseItems handles marks [] fuel reading
          else if marks = {} then none
          else some (.scalar .plain "" marks, reading)
        | [] => if marks = {} then none else some (.scalar .plain "" marks, reading)

/-- A value, or nothing in front of one of the given tokens. -/
def readOptional (handles : Handles) (block loose : Bool) (ends : List Token) :
    Nat → Reading → Option (Yaml × Reading)
  | 0, _ => none
  | fuel + 1, reading =>
    if reading.isAt ends then some (blank, reading) else readValue handles block loose fuel reading

/-- The value of a member behind its key, or nothing. -/
def readAfterKey (handles : Handles) (block : Bool) (ends : List Token) :
    Nat → Reading → Option (Yaml × Reading)
  | 0, _ => none
  | fuel + 1, reading =>
    match reading.tokens with
    | .value :: rest => readOptional handles block block ends fuel (reading.goOn rest)
    | _ => some (blank, reading)

def readBlockItems (handles : Handles) (marks : Marks) (items : List Yaml) :
    Nat → Reading → Option (Yaml × Reading)
  | 0, _ => none
  | fuel + 1, reading =>
    match reading.tokens with
    | .blockEntry :: rest =>
      match readOptional handles true false [.blockEntry, .blockEnd] fuel (reading.goOn rest) with
      | none => none
      | some (item, reading) => readBlockItems handles marks (item :: items) fuel reading
    | .blockEnd :: rest => some (.list items.reverse marks, reading.goOn rest)
    | _ => none

/-- The items that are left of a list that is indented like its key. -/
def readLooseItems (handles : Handles) (marks : Marks) (items : List Yaml) :
    Nat → Reading → Option (Yaml × Reading)
  | 0, _ => none
  | fuel + 1, reading =>
    match reading.tokens with
    | .blockEntry :: rest =>
      match readOptional handles true false [.blockEntry, .key, .value, .blockEnd] fuel
          (reading.goOn rest) with
      | none => none
      | some (item, reading) => readLooseItems handles marks (item :: items) fuel reading
    | _ => some (.list items.reverse marks, reading)

def readBlockMembers (handles : Handles) (marks : Marks)
    (members : List (Yaml × Yaml)) : Nat → Reading → Option (Yaml × Reading)
  | 0, _ => none
  | fuel + 1, reading =>
    let ends := [Token.key, .value, .blockEnd]
    match reading.tokens with
    | .key :: rest =>
      match readOptional handles true true ends fuel (reading.goOn rest) with
      | none => none
      | some (key, reading) =>
        match readAfterKey handles true ends fuel reading with
        | none => none
        | some (value, reading) =>
          readBlockMembers handles marks ((key, value) :: members) fuel reading
    | .blockEnd :: rest => some (.map members.reverse marks, reading.goOn rest)
    | _ => none

def readFlowItems (handles : Handles) (first : Bool) (marks : Marks)
    (items : List Yaml) : Nat → Reading → Option (Yaml × Reading)
  | 0, _ => none
  | fuel + 1, reading =>
    match first, reading.tokens with
    | _, .flowListEnd :: rest => some (.list items.reverse marks, reading.goOn rest)
    | true, _ => readFlowItem handles marks items fuel reading
    | false, .flowEntry :: rest => readFlowItem handles marks items fuel (reading.goOn rest)
    | false, _ => none

/-- An item between brackets with those behind it. A member by itself is a map of its own; if its
key is left out, the token where the key should be is skipped. -/
def readFlowItem (handles : Handles) (marks : Marks) (items : List Yaml) :
    Nat → Reading → Option (Yaml × Reading)
  | 0, _ => none
  | fuel + 1, reading =>
    match reading.tokens with
    | .flowListEnd :: rest => some (.list items.reverse marks, reading.goOn rest)
    | .key :: rest =>
      let inside := reading.goOn rest
      let key :=
        if inside.isAt [.value, .flowEntry, .flowListEnd] then
          some (blank, inside.goOn (rest.drop 1))
        else readValue handles false false fuel inside
      match key with
      | none => none
      | some (key, reading) =>
        match readAfterKey handles false [.flowEntry, .flowListEnd] fuel reading with
        | none => none
        | some (value, reading) =>
          readFlowItems handles false marks (.map [(key, value)] {} :: items) fuel reading
    | _ =>
      match readValue handles false false fuel reading with
      | none => none
      | some (item, reading) => readFlowItems handles false marks (item :: items) fuel reading

def readFlowMembers (handles : Handles) (first : Bool) (marks : Marks)
    (members : List (Yaml × Yaml)) : Nat → Reading → Option (Yaml × Reading)
  | 0, _ => none
  | fuel + 1, reading =>
    match first, reading.tokens with
    | _, .flowMapEnd :: rest => some (.map members.reverse marks, reading.goOn rest)
    | true, _ => readFlowMember handles marks members fuel reading
    | false, .flowEntry :: rest => readFlowMember handles marks members fuel (reading.goOn rest)
    | false, _ => none

/-- A member between braces with those behind it. A key may stand without a value. -/
def readFlowMember (handles : Handles) (marks : Marks)
    (members : List (Yaml × Yaml)) : Nat → Reading → Option (Yaml × Reading)
  | 0, _ => none
  | fuel + 1, reading =>
    match reading.tokens with
    | .flowMapEnd :: rest => some (.map members.reverse marks, reading.goOn rest)
    | .key :: rest =>
      match readOptional handles false false [.value, .flowEntry, .flowMapEnd] fuel
          (reading.goOn rest) with
      | none => none
      | some (key, reading) =>
        match readAfterKey handles false [.flowEntry, .flowMapEnd] fuel reading with
        | none => none
        | some (value, reading) =>
          readFlowMembers handles false marks ((key, value) :: members) fuel reading
    | _ =>
      match readValue handles false false fuel reading with
      | none => none
      | some (key, reading) =>
        readFlowMembers handles false marks ((key, blank) :: members) fuel reading

end

/-- The handles that the directives in front of a document name, and the tokens behind them. There
may be one version, and each handle once. -/
def readDirectives (versioned : Bool) (handles : Handles) :
    List Token → Option (Handles × List Token)
  | .directive (.version major minor) :: rest =>
    if versioned ∨ major ≠ 1 ∨ (minor ≠ 1 ∧ minor ≠ 2) then none
    else readDirectives true handles rest
  | .directive (.handle name stands) :: rest =>
    if handles.any (·.1 == name) then none
    else readDirectives versioned ((name, stands) :: handles) rest
  | rest => some (handles, rest)

/-- A document has a mark in front of it. -/
def isMarked : List Token → Bool
  | .directive _ :: _ => true
  | .documentStart :: _ => true
  | _ => false

/-- The value of the first document, and the tokens behind it. -/
def readDocument (tokens : List Token) : Option (Yaml × List Token) :=
  let value (handles : Handles) (tokens : List Token) : Option (Yaml × List Token) :=
    (readValue (handles ++ commonHandles) true false (4 * tokens.length + 4) { tokens }).map
      fun found => (found.1, found.2.tokens)
  if isMarked tokens then
    match readDirectives false [] tokens with
    | some (handles, .documentStart :: rest) =>
      if isMarked rest ∨ rest.isEmpty ∨ rest.head? = some .documentEnd then some (blank, rest)
      else value handles rest
    | _ => none
  else value [] tokens

/-- The value of the only document in a text. -/
def parse? (text : String) : Option Yaml := do
  let tokens ← tokens? text
  if tokens.isEmpty then some blank
  else
    let (value, rest) ← readDocument tokens
    if (rest.dropWhile (· == .documentEnd)).isEmpty then some value else none

end Yaml

end PackedMatrix
