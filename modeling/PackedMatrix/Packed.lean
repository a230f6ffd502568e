import PackedMatrix.Group.Read
import PackedMatrix.Group.Validity
import PackedMatrix.Total

namespace PackedMatrix

/-- A matrix stored as column groups. -/
structure Packed where
  rows : Nat
  cols : Nat
  groups : List Group
  /-- For each column the number of its group. -/
  owners : Array Nat
  deriving DecidableEq, Repr

namespace Packed

/-- Enters the columns of a group into the table. -/
def claim (cols group : Nat) (owners : Array (Option Nat)) :
    List Nat → Except Breach (Array (Option Nat))
  | [] => .ok owners
  | column :: rest =>
    match owners[column]? with
    | none => .error (.strayColumn group column cols)
    | some (some other) => .error (.coveredTwice column other group)
    | some none => claim cols group (owners.setIfInBounds column (some group)) rest

/-- Checks the groups from number `index` on and enters their columns. -/
def claimAll (rows cols index : Nat) (owners : Array (Option Nat)) :
    List Group → Except PackError (Array (Option Nat))
  | [] => .ok owners
  | group :: rest =>
    match group.validate with
    | .error error => .error error
    | .ok _ =>
      if group.rows ≠ rows then .error (.invariant (.groupRows index group.rows rows))
      else
        match claim cols index owners group.columns with
        | .error breach => .error (.invariant breach)
        | .ok owners => claimAll rows cols (index + 1) owners rest

/-- A matrix of valid groups that cover each column once. A claimed column has one owner, so it is
left to find a column that has none. -/
def ofGroups (rows cols : Nat) (groups : List Group) : Except PackError Packed :=
  match claimAll rows cols 0 (Array.replicate cols none) groups with
  | .error error => .error error
  | .ok owners =>
    match owners.findIdx? Option.isNone with
    | some column => .error (.invariant (.uncovered column))
    | none => .ok ⟨rows, cols, groups, owners.map (·.getD 0)⟩

/-- The group that has a column. -/
def groupOf? (packed : Packed) (col : Nat) : Option Group :=
  packed.owners[col]?.bind fun index => packed.groups[index]?

def get? (packed : Packed) (row col : Nat) : Except Fault (Option Cell) :=
  match packed.groupOf? col with
  | some group => group.get? row col
  | none => .ok none

/-- The matrix with every cell stored. -/
def decompress (packed : Packed) : Except Fault Block := do
  let cells ← packed.groups.foldlM (fun cells group => group.decompressInto packed.cols cells)
    (Array.replicate (packed.rows * packed.cols) Cell.zero)
  pure ⟨packed.rows, packed.cols, .dense cells⟩

def size (packed : Packed) : Nat := Block.headerSize + total (packed.groups.map Group.size)

/-- Matrices agree when their shapes and groups do; a NaN agrees with nothing. -/
def sameNumbers (a b : Packed) : Bool :=
  a.rows == b.rows && a.cols == b.cols && a.groups.length == b.groups.length &&
    (a.groups.zip b.groups).all (fun pair => pair.1.sameNumbers pair.2) && a.owners == b.owners

end Packed

end PackedMatrix
