import PackedMatrix.Json.Outline
import PackedMatrix.Statistics

namespace PackedMatrix

namespace AbortReason

def toJson (reason : AbortReason) : Json :=
  let tag := ("reason", Json.text reason.key)
  match reason with
  | failed detail => .object [tag, ("detail", .text detail)]
  | _ => .object [tag]

end AbortReason

namespace Statistics

def toJson (stats : Statistics) : Json :=
  .object [
    ("original_size", .ofNat stats.inputSize),
    ("compressed_size", .ofNat stats.compressedSize),
    ("estimated_size", .ofNat? stats.estimatedSize),
    ("ratio", .ofCell stats.ratio),
    ("transposed", .bool stats.transposed),
    ("num_groups", .ofNat stats.groups),
    ("group_types", .object (stats.groupTypes.map fun entry => (entry.1.name, .ofNat entry.2))),
    ("phase_seconds", .object (stats.phaseSeconds.map fun entry => (entry.1.key, .ofCell entry.2))),
    ("abort", (stats.abort.map AbortReason.toJson).getD .null)]

/-- The text with one member on each line. -/
def render (stats : Statistics) : String := stats.toJson.pretty 0

/-- The pairs of an object in the order of their keys; of equal keys the last one counts. -/
def readMap {κ α : Type} (key? : String → Option κ) (rank : κ → Nat) (value? : Json → Option α)
    (text : List Char) : Option (List (κ × α)) :=
  match Json.Outline.ofText? text with
  | some (.object members) =>
    members.foldlM (fun entries member => do
      let key ← key? member.1
      let value ← (Json.ofChars? member.2).bind value?
      pure (upsert rank key value (fun _ => value) entries)) []
  | _ => none

/-- The text that a value denotes. -/
def readText (text : List Char) : Option String := (Json.ofChars? text).bind Json.asText?

/-- A name: a text, or the key of an object whose only value is null. -/
def readName (text : List Char) : Option String :=
  match Json.Outline.ofText? text with
  | some (.object [(name, value)]) => if value = "null".toList then some name else none
  | _ => readText text

/-- The abort reason with a name and a detail. Reasons without a detail allow none but null. -/
def readReason (name : String) (detail : List Char) : Option AbortReason := do
  match name, ← Json.ofChars? detail with
  | "not_compressible", .null => some .notCompressible
  | "not_beneficial", .null => some .notBeneficial
  | "failed", .text detail => some (.failed detail)
  | _, _ => none

/-- An abort reason: an object or a list with its name and, for a failure, its detail. In a list the
name is a text. -/
def readAbort (text : List Char) : Option (Option AbortReason) := do
  match ← Json.Outline.ofText? text with
  | .object members =>
    let name ← readName (← Json.Outline.required members "reason")
    let detail ← Json.Outline.optional members "detail"
    (readReason name detail).map some
  | .list [name, detail] => (readReason (← readText name) detail).map some
  | .list _ => none
  | .leaf text => if text = "null".toList then some none else none

def readNat? (text : List Char) : Option (Option Nat) := do
  match ← Json.ofChars? text with
  | .null => some none
  | value => value.asNat?.map some

/-- The names of the members, in their order. -/
def memberNames : List String :=
  ["original_size", "compressed_size", "estimated_size", "ratio", "transposed", "num_groups",
    "group_types", "phase_seconds", "abort"]

/-- The statistics that a text denotes. A list stands for an object with its members in order. -/
def parse? (text : String) : Option Statistics := do
  let members ← match ← Json.Outline.ofText? text.toList with
    | .object members => some members
    | .list items =>
      if items.length = memberNames.length then some (memberNames.zip items) else none
    | .leaf _ => none
  let text (name : String) : Option (List Char) := Json.Outline.required members name
  let value (name : String) : Option Json := (text name).bind Json.ofChars?
  let inputSize ← (← value "original_size").asNat?
  let compressedSize ← (← value "compressed_size").asNat?
  let estimatedSize ← readNat? (← Json.Outline.optional members "estimated_size")
  let ratio ← (← value "ratio").asCell?
  let transposed ← (← value "transposed").asBool?
  let groups ← (← value "num_groups").asNat?
  let groupTypes ← readMap Encoding.ofName? Encoding.rank Json.asNat? (← text "group_types")
  let phaseSeconds ← readMap Phase.ofKey? Phase.rank Json.asCell? (← text "phase_seconds")
  let abort ← readAbort (← Json.Outline.optional members "abort")
  pure { inputSize, compressedSize, estimatedSize, ratio, transposed, groups, groupTypes,
         phaseSeconds, abort }

end Statistics

end PackedMatrix
