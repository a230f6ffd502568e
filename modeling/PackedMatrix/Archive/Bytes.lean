import PackedMatrix.Cell
import PackedMatrix.Timestamp

namespace PackedMatrix

/-- Where bytes stop being the UTF-8 form of a text: the length of the part that is not, or nothing
if the bytes end inside a character. -/
structure TextDamage where
  start : Nat
  length : Option Nat
  deriving DecidableEq, Repr

def TextDamage.message (damage : TextDamage) : String :=
  match damage.length with
  | some length => s!"invalid utf-8 sequence of {length} bytes from index {damage.start}"
  | none => s!"incomplete utf-8 byte sequence from index {damage.start}"

/-- Why bytes are not those of a value. -/
inductive DecodeError
  /-- The bytes end inside a number. -/
  | endInNumber
  /-- The bytes end inside a text. -/
  | endInText
  /-- The number of an alternative that does not exist. -/
  | alternative (found count : Nat)
  | text (damage : TextDamage)
  | time (cause : TimeError)
  deriving DecidableEq, Repr

def DecodeError.message : DecodeError → String
  | endInNumber => "io error: unexpected end of file"
  | endInText => "io error: "
  | alternative found count =>
    s!"invalid value: integer \x60{found}\x60, expected variant index 0 <= i < {count}"
  | text damage => "string is not valid utf8: " ++ damage.message
  | time cause => cause.message

namespace Bytes

/-- The low `width` bytes of a number. -/
def ofNat : Nat → Nat → List UInt8
  | 0, _ => []
  | width + 1, value => UInt8.ofNat value :: ofNat width (value / 256)

def ofSize (value : Nat) : List UInt8 := ofNat 8 value

/-- The number of an alternative. -/
def ofChoice (value : Nat) : List UInt8 := ofNat 4 value

def ofCell (cell : Cell) : List UInt8 := ofNat 8 cell.bits.toNat

def ofItems {α : Type} (encode : α → List UInt8) (items : List α) : List UInt8 :=
  ofSize items.length ++ items.flatMap encode

def ofText (text : String) : List UInt8 := ofItems (fun byte => [byte]) text.toUTF8.toList

/-- The number that bytes denote. -/
def toNat : List UInt8 → Nat
  | [] => 0
  | byte :: rest => byte.toNat + 256 * toNat rest

theorem length_ofNat (width value : Nat) : (ofNat width value).length = width := by
  induction width generalizing value with
  | zero => rfl
  | succ width ih => simp [ofNat, ih]

end Bytes

/-- Reads a value from the front of bytes. -/
def Decoder (α : Type) : Type := List UInt8 → Except DecodeError (α × List UInt8)

namespace Decoder

/-- Reads nothing. -/
def value {α : Type} (found : α) : Decoder α := fun bytes => .ok (found, bytes)

def fail {α : Type} (error : DecodeError) : Decoder α := fun _ => .error error

/-- Reads with one decoder, and with what it found goes on. -/
def andThen {α β : Type} (first : Decoder α) (next : α → Decoder β) : Decoder β := fun bytes =>
  match first bytes with
  | .ok (found, rest) => next found rest
  | .error error => .error error

instance : Monad Decoder where
  pure := value
  bind := andThen

/-- So many bytes; `error` says what it means if there are fewer. -/
def bytes (count : Nat) (error : DecodeError) : Decoder (List UInt8) := fun input =>
  let taken := input.take count
  if taken.length < count then .error error else .ok (taken, input.drop count)

def nat (width : Nat) : Decoder Nat := do
  let taken ← bytes width .endInNumber
  pure (Bytes.toNat taken)

def size : Decoder Nat := nat 8

def cell : Decoder Cell := do
  let bits ← nat 8
  pure ⟨UInt64.ofNat bits⟩

/-- Adds so many items to those that were read before; the first failure ends the reading. -/
def collect {α : Type} (item : Decoder α) (count : Nat) (items : Array α) : Decoder (Array α) :=
  match count with
  | 0 => value items
  | count + 1 => fun input =>
    match item input with
    | .ok (found, rest) => collect item count (items.push found) rest
    | .error error => .error error

/-- A length and as many items. -/
def items {α : Type} (item : Decoder α) : Decoder (Array α) := do
  let count ← size
  collect item count #[]

/-- The value that the number of an alternative stands for, out of so many. -/
def choice {α : Type} (count : Nat) (pick : Nat → Option α) : Decoder α := do
  let found ← nat 4
  match pick found with
  | some chosen => value chosen
  | none => fail (.alternative found count)

end Decoder

namespace TextDamage

/-- The ranges of the bytes behind the first byte of a character. -/
def tailRanges (first : Nat) : Option (List (Nat × Nat)) :=
  let rest := (128, 191)
  if first < 128 then some []
  else if 194 ≤ first ∧ first ≤ 223 then some [rest]
  else if first = 224 then some [(160, 191), rest]
  else if first = 237 then some [(128, 159), rest]
  else if 225 ≤ first ∧ first ≤ 239 then some [rest, rest]
  else if first = 240 then some [(144, 191), rest, rest]
  else if 241 ≤ first ∧ first ≤ 243 then some [rest, rest, rest]
  else if first = 244 then some [(128, 143), rest, rest]
  else none

/-- The number of bytes that fit the ranges in order. -/
def fitting : List (Nat × Nat) → List UInt8 → Nat
  | (low, high) :: ranges, byte :: bytes =>
    if low ≤ byte.toNat ∧ byte.toNat ≤ high then fitting ranges bytes + 1 else 0
  | _, _ => 0

/-- The first damage of bytes that start at the given place. -/
def find? (start : Nat) (bytes : List UInt8) : Option TextDamage :=
  match bytes with
  | [] => none
  | first :: rest =>
    match tailRanges first.toNat with
    | none => some ⟨start, some 1⟩
    | some ranges =>
      let fit := fitting ranges rest
      if fit = ranges.length then find? (start + fit + 1) (rest.drop fit)
      else if fit = rest.length then some ⟨start, none⟩
      else some ⟨start, some (fit + 1)⟩
termination_by bytes.length
decreasing_by
  simp only [List.length_drop, List.length_cons]
  omega

end TextDamage

namespace Decoder

def text : Decoder String := do
  let count ← size
  let taken ← bytes count .endInText
  match String.fromUTF8? ⟨taken.toArray⟩ with
  | some found => value found
  | none => fail (.text ((TextDamage.find? 0 taken).getD ⟨0, none⟩))

end Decoder

end PackedMatrix
