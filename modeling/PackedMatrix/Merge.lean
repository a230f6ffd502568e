import PackedMatrix.CodeMap
import PackedMatrix.Total

namespace PackedMatrix

/-- Merged rows and for each the code of its tuple. -/
structure MergedRows where
  rows : Array Nat
  codes : CodeMap
  deriving DecidableEq, Repr

/-- How lists are merged: by playing their heads against each other, or by marking their rows in an
array of slots. -/
inductive MergeStrategy
  /-- The list with the least head goes first. -/
  | heads
  /-- Rows are marked in an array of slots. -/
  | slots
  deriving DecidableEq, Repr, Inhabited

/-- A way of merging lists of rows below a bound. -/
structure Merger where
  strategy : MergeStrategy
  rows : Nat
  deriving DecidableEq, Repr

/-- A row with the number of the list that names it. -/
structure Claim where
  row : Nat
  list : Nat
  deriving DecidableEq, Repr, Inhabited

namespace Merger

/-- Slots pay off once the entries reach a quarter of the rows. -/
def chooseStrategy (entries rows : Nat) : MergeStrategy :=
  if entries * 4 ≥ rows then .slots else .heads

/-- The merger that suits so many entries. -/
def forEntries (entries rows : Nat) : Merger := ⟨chooseStrategy entries rows, rows⟩

def claims (lists : List (List Nat)) : List (List Claim) :=
  lists.zipIdx.map fun entry => entry.1.map fun row => ⟨row, entry.2⟩

/-- Merges neighbouring lists by their heads; the earlier list wins a tie. -/
def mergePairs : List (List Claim) → List (List Claim)
  | a :: b :: rest => a.merge b (fun x y => decide (x.row ≤ y.row)) :: mergePairs rest
  | lists => lists

theorem length_mergePairs (lists : List (List Claim)) :
    (mergePairs lists).length = (lists.length + 1) / 2 := by
  fun_induction mergePairs lists with
  | case1 a b rest ih => simp only [List.length_cons, ih]; omega
  | case2 lists short =>
    match lists, short with
    | [], _ => simp
    | [_], _ => simp
    | a :: b :: rest, short => exact (short a b rest rfl).elim

def mergeHeads : List (List Claim) → List Claim
  | [] => []
  | [list] => list
  | a :: b :: rest => mergeHeads (mergePairs (a :: b :: rest))
termination_by lists => lists.length
decreasing_by
  rw [length_mergePairs]
  simp only [List.length_cons]
  omega

/-- Marks each claimed row with its list. -/
def markSlots (slots : Array (Option Nat)) : List Claim → Except PackError (Array (Option Nat))
  | [] => .ok slots
  | claim :: rest =>
    match slots[claim.row]? with
    | none => .error (.invariant (.mergedRow claim.row slots.size))
    | some (some _) => .error (.invariant (.mergedTwice claim.row))
    | some none => markSlots (slots.setIfInBounds claim.row (some claim.list)) rest

/-- The slots of all rows. -/
def scatter (merger : Merger) (lists : List (List Nat)) : Except PackError (Array (Option Nat)) :=
  markSlots (Array.replicate merger.rows none) (claims lists).flatten

/-- The first two neighbours that do not increase. -/
def firstDisorder : List Nat → Option (Nat × Nat)
  | a :: b :: rest => if a < b then firstDisorder (b :: rest) else some (a, b)
  | _ => none

/-- Turns claims into merged rows; the rows have to increase. -/
def finish (tuples : Nat) (merged : List Claim) : Except PackError MergedRows :=
  match firstDisorder (merged.map Claim.row) with
  | some (row, next) => .error (.invariant (.mergedOrder row next))
  | none =>
    .ok ⟨(merged.map Claim.row).toArray, CodeMap.ofList tuples (merged.map Claim.list)⟩

/-- Merges all lists; the code of a row is the number of its list. -/
def insert (merger : Merger) (lists : List (List Nat)) : Except PackError MergedRows :=
  match merger.strategy with
  | .heads => finish lists.length (mergeHeads (claims lists))
  | .slots =>
    match merger.scatter lists with
    | .error error => .error error
    | .ok slots =>
      finish lists.length
        (slots.toList.zipIdx.filterMap fun slot => slot.1.map fun list => ⟨slot.2, list⟩)

/-- The number of a list once list `excluded` is taken out. -/
def shift (excluded list : Nat) : Nat := if list > excluded then list - 1 else list

/-- What a slot says about its row: rows of the excluded list are left out, and rows of no list
get the code behind the remaining lists. -/
def claimOfSlot (excluded zeroCode : Nat) (slot : Option Nat × Nat) : Option Claim :=
  match slot.1 with
  | none => some ⟨slot.2, zeroCode⟩
  | some list => if list = excluded then none else some ⟨slot.2, shift excluded list⟩

/-- Merges the rows outside one list, rows of no list included. The codes of the lists behind the
excluded one move down, and the last code stands for the rows of no list. These are at no head, so
heads are played only if every row is in a list. -/
def insertExcluding (merger : Merger) (lists : List (List Nat)) (excluded : Nat) :
    Except PackError MergedRows :=
  let covered := total (lists.map List.length)
  if excluded ≥ lists.length then .error (.invariant (.excludedList excluded lists.length))
  else if covered > merger.rows then .error (.invariant (.offsetCount covered merger.rows))
  else
    let wanted := merger.rows - (lists.getD excluded []).length
    let merged : Except PackError (List Claim) :=
      if covered = merger.rows ∧ merger.strategy = .heads then
        .ok ((mergeHeads ((claims lists).eraseIdx excluded)).map
          fun claim => { claim with list := shift excluded claim.list })
      else
        (merger.scatter lists).map fun slots =>
          slots.toList.zipIdx.filterMap (claimOfSlot excluded (lists.length - 1))
    match merged with
    | .error error => .error error
    | .ok merged =>
      if merged.length ≠ wanted then .error (.invariant (.mergedCount merged.length wanted))
      else finish lists.length merged

end Merger

end PackedMatrix
