import PackedMatrix.Failure
import PackedMatrix.Settings
import PackedMatrix.Yaml.Document

namespace PackedMatrix

namespace Yaml

/-- The digits of a whole number in the given base, of 64 bits at most. -/
def readDigits (base : Nat) (text : List Char) : Option Nat := do
  if text.isEmpty then none
  let value ← text.foldlM (fun value c => do
    let digit ← Json.hexValue? c
    if digit < base then some (value * base + digit) else none) 0
  if value < UInt64.size then some value else none

/-- A whole number that is not negative. Decimal numbers do not start with a needless zero. -/
def readNat (text : List Char) : Option Nat :=
  let digits := match text with
    | '+' :: rest => rest
    | _ => text
  match digits with
  | '0' :: 'x' :: rest => readDigits 16 rest
  | '0' :: 'o' :: rest => readDigits 8 rest
  | '0' :: 'b' :: rest => readDigits 2 rest
  | '0' :: _ :: _ => none
  | _ => readDigits 10 digits

/-- The text of a scalar that may stand for a value of the given type: a plain one, or a literal
block whose tag says so. -/
def plainText? (type : String) : Yaml → Option String
  | scalar .plain text _ => some text
  | scalar .literal text marks =>
    if marks.tag = some (typeTag ++ type).toUTF8.toList then some text else none
  | _ => none

def nat? (value : Yaml) : Option Nat :=
  (value.plainText? "int").bind fun text => readNat text.toList

def bool? (value : Yaml) : Option Bool :=
  (value.plainText? "bool").bind fun text =>
    if ["true", "True", "TRUE"].contains text then some true
    else if ["false", "False", "FALSE"].contains text then some false
    else none

/-- The text of a scalar, however it is written. -/
def text? : Yaml → Option String
  | scalar _ text _ => some text
  | _ => none

/-- One of several names: the one in the tag of a scalar that stands for nothing, or the text of a
scalar whose tag holds no name. -/
def choice? {α : Type} (ofName? : String → Option α) : Yaml → Option α
  | scalar style text marks =>
    match marks.name? with
    | some name =>
      if style = .plain ∧ ["", "null", "Null", "NULL", "~"].contains text then ofName? name
      else none
    | none => ofName? text
  | _ => none

/-- The items of a list; nothing stands for an empty one. -/
def items? : Yaml → Option (List Yaml)
  | list items _ => some items
  | value => if value.isBlank then some [] else none

/-- The members of a map; nothing stands for an empty one. -/
def members? : Yaml → Option (List (Yaml × Yaml))
  | map members _ => some members
  | value => if value.isBlank then some [] else none

end Yaml

namespace Settings

def fieldNames : List String :=
  ["parallelism", "transpose_input", "transpose_row_threshold", "valid_compressions",
    "sort_values_by_length", "ole_block_size", "investigate_estimate", "fallback_on_error",
    "file_codec"]

/-- Sets the setting with the given name. Items of a list may be references. -/
def setField (anchors : List (Nat × Yaml)) (settings : Settings) (name : String) (value : Yaml) :
    Option Settings :=
  match name with
  | "parallelism" => value.nat?.map fun parallelism => { settings with parallelism }
  | "transpose_input" =>
    (value.choice? TransposeMode.ofName?).map fun mode => { settings with transposeInput := mode }
  | "transpose_row_threshold" =>
    value.nat?.map fun rows => { settings with transposeRowThreshold := rows }
  | "valid_compressions" => do
    let items ← value.items?
    let encodings ← items.mapM fun item => (item.follow anchors).choice? Encoding.ofName?
    some { settings with encodings }
  | "sort_values_by_length" => value.bool?.map fun sort => { settings with sortByFrequency := sort }
  | "ole_block_size" => value.nat?.map fun rows => { settings with offsetBlockSize := rows }
  | "investigate_estimate" =>
    value.bool?.map fun investigate => { settings with investigateEstimate := investigate }
  | "fallback_on_error" =>
    value.bool?.map fun fallback => { settings with fallbackOnError := fallback }
  | "file_codec" =>
    (value.choice? Codec.ofName?).map fun codec => { settings with codec }
  | _ => some settings

/-- A known name occurs twice. -/
def repeatsField (members : List (String × Yaml)) : Bool :=
  fieldNames.any fun name => members.countP (·.1 == name) > 1

/-- The settings that a value denotes, not yet brought into range. Keys and values may be
references. -/
def ofYaml? (value : Yaml) : Option Settings := do
  let anchors := value.anchored
  let members ← (← value.members?).mapM fun member => do
    let name ← (member.1.follow anchors).text?
    pure (name, member.2.follow anchors)
  if repeatsField members then none
  else members.foldlM (fun settings member => setField anchors settings member.1 member.2) {}

/-- The settings that a document denotes, not yet brought into range. -/
def parse? (text : String) : Option Settings := (Yaml.parse? text).bind ofYaml?

/-- The settings under their names. The text of this object is a document that denotes them. -/
def toJson (settings : Settings) : Json :=
  .object [("parallelism", .ofNat settings.parallelism),
    ("transpose_input", .text settings.transposeInput.name),
    ("transpose_row_threshold", .ofNat settings.transposeRowThreshold),
    ("valid_compressions", .list (settings.encodings.map fun encoding => .text encoding.name)),
    ("sort_values_by_length", .bool settings.sortByFrequency),
    ("ole_block_size", .ofNat settings.offsetBlockSize),
    ("investigate_estimate", .bool settings.investigateEstimate),
    ("fallback_on_error", .bool settings.fallbackOnError),
    ("file_codec", .text settings.codec.name)]

/-- The settings that a document denotes, in range. -/
def read (text : String) : Except Failure Settings :=
  match parse? text with
  | some settings => settings.normalize.mapError PackError.failure
  | none => .error (.ofText "Failed to parse compression settings")

end Settings

end PackedMatrix
