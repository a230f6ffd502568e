import PackedMatrix.Json.Parse

namespace PackedMatrix

namespace Json

/-- The text behind the closing quote. -/
def skipText : List Char → Option (List Char)
  | [] => none
  | '"' :: rest => some rest
  | '\\' :: 'u' :: a :: b :: c :: d :: rest =>
    if [a, b, c, d].all fun digit => (hexValue? digit).isSome then skipText rest else none
  | '\\' :: c :: rest =>
    if ['"', '\\', '/', 'b', 'f', 'n', 'r', 't'].contains c then skipText rest else none
  | c :: rest => if c.toNat < 32 then none else skipText rest

/-- The text behind a value without items and members. -/
def skipLeaf (text : List Char) : Option (List Char) :=
  match text with
  | '"' :: rest => skipText rest
  | 'n' :: _ => (readWord "null" .null text).map Prod.snd
  | 't' :: _ => (readWord "true" .null text).map Prod.snd
  | 'f' :: _ => (readWord "false" .null text).map Prod.snd
  | _ => (readNumber text).map Prod.snd

/-- What may come next. -/
inductive Expected
  | value
  | member
  /-- A comma, or the end of what is open. -/
  | ending
  deriving DecidableEq, Repr

/-- The text behind a key and its colon. -/
def skipKey (text : List Char) : Option (List Char) :=
  match skipBlanks text with
  | '"' :: rest =>
    match (skipText rest).map skipBlanks with
    | some (':' :: rest) => some rest
    | _ => none
  | _ => none

/-- Skips one step: what comes next, the ends of what is open, and the text behind the step. -/
def skipStep (expected : Expected) (ends : List Char) (text : List Char) :
    Option (Expected × List Char × List Char) :=
  match expected, skipBlanks text with
  | .value, '[' :: rest =>
    match skipBlanks rest with
    | ']' :: rest => some (.ending, ends, rest)
    | item => some (.value, ']' :: ends, item)
  | .value, '\x7b' :: rest =>
    match skipBlanks rest with
    | '\x7d' :: rest => some (.ending, ends, rest)
    | member => some (.member, '\x7d' :: ends, member)
  | .value, leaf => (skipLeaf leaf).map fun rest => (.ending, ends, rest)
  | .member, key => (skipKey key).map fun rest => (.value, ends, rest)
  | .ending, ',' :: rest =>
    match ends with
    | ']' :: _ => some (.value, ends, rest)
    | '\x7d' :: _ => some (.member, ends, rest)
    | _ => none
  | .ending, c :: rest => if ends.head? = some c then some (.ending, ends.drop 1, rest) else none
  | .ending, [] => none

/-- The text behind a value, of which some parts are open. -/
def skipOpen : Nat → Expected → List Char → List Char → Option (List Char)
  | 0, _, _, _ => none
  | fuel + 1, expected, ends, chars =>
    if expected = .ending ∧ ends.isEmpty then some chars
    else
      match skipStep expected ends chars with
      | some (expected, ends, rest) => skipOpen fuel expected ends rest
      | none => none

/-- The text of a value, and the text behind it. -/
def splitValue (text : List Char) : Option (List Char × List Char) :=
  let text := skipBlanks text
  (skipOpen (text.length + 1) .value [] text).map fun rest =>
    (text.take (text.length - rest.length), rest)

/-- A text whose values are left as they are written. -/
inductive Outline
  | leaf (text : List Char)
  | list (items : List (List Char))
  | object (members : List (String × List Char))
  deriving Repr, Inhabited

namespace Outline

def readItems : Nat → Array (List Char) → List Char → Reading Outline
  | 0, _, _ => none
  | fuel + 1, items, chars =>
    match splitValue chars with
    | none => none
    | some (item, rest) =>
      match skipBlanks rest with
      | ',' :: rest => readItems fuel (items.push item) rest
      | ']' :: rest => some (list (items.push item).toList, rest)
      | _ => none

/-- A key, the text of its value, and the text behind them. -/
def readMember (text : List Char) : Reading (String × List Char) :=
  match skipBlanks text with
  | '"' :: rest =>
    match readText (rest.length + 1) rest #[] with
    | none => none
    | some (key, rest) =>
      match skipBlanks rest with
      | ':' :: rest => (splitValue rest).map fun found => ((key, found.1), found.2)
      | _ => none
  | _ => none

def readMembers : Nat → Array (String × List Char) → List Char → Reading Outline
  | 0, _, _ => none
  | fuel + 1, members, chars =>
    match readMember chars with
    | none => none
    | some (member, rest) =>
      match skipBlanks rest with
      | ',' :: rest => readMembers fuel (members.push member) rest
      | '\x7d' :: rest => some (object (members.push member).toList, rest)
      | _ => none

def ofText? (text : List Char) : Option Outline :=
  let found : Reading Outline :=
    match skipBlanks text with
    | '[' :: rest =>
      match skipBlanks rest with
      | ']' :: rest => some (list [], rest)
      | rest => readItems (rest.length + 1) #[] rest
    | '\x7b' :: rest =>
      match skipBlanks rest with
      | '\x7d' :: rest => some (object [], rest)
      | rest => readMembers (rest.length + 1) #[] rest
    | value => (splitValue value).map fun found => (leaf found.1, found.2)
  match found with
  | some (outline, rest) => if (skipBlanks rest).isEmpty then some outline else none
  | none => none

/-- The value of a member with the given name, as far as there is one; it may not occur twice. -/
def member? (members : List (String × List Char)) (name : String) : Option (Option (List Char)) :=
  match members.filter (·.1 == name) with
  | [] => some none
  | [found] => some (some found.2)
  | _ => none

def required (members : List (String × List Char)) (name : String) : Option (List Char) :=
  (member? members name).bind id

def optional (members : List (String × List Char)) (name : String) : Option (List Char) :=
  (member? members name).map (·.getD "null".toList)

end Outline

end Json

end PackedMatrix
