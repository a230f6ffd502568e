namespace PackedMatrix

namespace Yaml

/-- How a scalar is written. -/
inductive Style
  | plain
  /-- Between single or double quotes. -/
  | quoted
  /-- A block of lines that are kept. -/
  | literal
  /-- A block of lines that are joined. -/
  | folded
  deriving DecidableEq, Repr, Inhabited

/-- What may stand in front of a value. -/
structure Marks where
  /-- The octets of a tag, which need not be those of characters. -/
  tag : Option (List UInt8) := none
  anchor : Option Nat := none
  deriving DecidableEq, Repr, Inhabited

/-- The name in a tag that starts with an exclamation mark. -/
def Marks.name? (marks : Marks) : Option String :=
  match marks.tag with
  | some (0x21 :: name) => String.fromUTF8? ⟨name.toArray⟩
  | _ => none

end Yaml

/-- A YAML value. -/
inductive Yaml
  /-- Stands for the value whose anchor has this number. -/
  | reference (anchor : Nat)
  | scalar (style : Yaml.Style) (text : String) (marks : Yaml.Marks)
  | list (items : List Yaml) (marks : Yaml.Marks)
  | map (members : List (Yaml × Yaml)) (marks : Yaml.Marks)
  deriving Repr, Inhabited

namespace Yaml

/-- What stands where a value is left out. -/
def blank : Yaml := scalar .plain "" {}

/-- A value left out, possibly behind a tag or an anchor. -/
def isBlank : Yaml → Bool
  | scalar .plain text _ => text.isEmpty
  | _ => false

def marks : Yaml → Marks
  | reference _ => {}
  | scalar _ _ marks => marks
  | list _ marks => marks
  | map _ marks => marks

/-- A value under its number, if it has an anchor. -/
def ownAnchor (value : Yaml) : List (Nat × Yaml) :=
  (value.marks.anchor.map fun anchor => (anchor, value)).toList

theorem sizeOf_key_lt {members : List (Yaml × Yaml)} {member : Yaml × Yaml}
    (h : member ∈ members) : sizeOf member.1 < sizeOf members := by
  have := List.sizeOf_lt_of_mem h
  cases member
  simp only [Prod.mk.sizeOf_spec] at this ⊢
  omega

theorem sizeOf_member_lt {members : List (Yaml × Yaml)} {member : Yaml × Yaml}
    (h : member ∈ members) : sizeOf member.2 < sizeOf members := by
  have := List.sizeOf_lt_of_mem h
  cases member
  simp only [Prod.mk.sizeOf_spec] at this ⊢
  omega

/-- The values with an anchor under their numbers, in the order in which they start. -/
def anchored (value : Yaml) : List (Nat × Yaml) :=
  value.ownAnchor ++
    match value with
    | reference _ => []
    | scalar _ _ _ => []
    | list items _ => items.flatMap fun item => item.anchored
    | map members _ => members.flatMap fun member => member.1.anchored ++ member.2.anchored
decreasing_by
  · have := List.sizeOf_lt_of_mem ‹_›
    simp only [Yaml.list.sizeOf_spec]
    omega
  · have := sizeOf_key_lt ‹_›
    simp only [Yaml.map.sizeOf_spec]
    omega
  · have := sizeOf_member_lt ‹_›
    simp only [Yaml.map.sizeOf_spec]
    omega

/-- The value that a reference stands for. Of several values with its number the last one counts. -/
def follow (anchors : List (Nat × Yaml)) : Yaml → Yaml
  | reference anchor =>
    ((anchors.reverse.find? (·.1 == anchor)).map Prod.snd).getD (reference anchor)
  | value => value

end Yaml

end PackedMatrix
