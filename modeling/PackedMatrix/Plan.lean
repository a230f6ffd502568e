import PackedMatrix.Settings

namespace PackedMatrix

/-- Columns to store together, and the encoding to ask for. -/
structure ColumnPlan where
  columns : List Nat
  encoding : Encoding
  deriving DecidableEq, Repr, Inhabited

namespace ColumnPlan

/-- Claims columns for a group; the owners say which group has which column. -/
def claim (cols group : Nat) (owners : Array (Option Nat)) :
    List Nat → Except PlanError (Array (Option Nat))
  | [] => .ok owners
  | column :: rest =>
    match owners[column]? with
    | none => .error (.groupColumnRange column group cols)
    | some (some other) => .error (.claimedTwice column other group)
    | some none => claim cols group (owners.setIfInBounds column (some group)) rest

/-- Checks the plans from number `group` on and sorts their columns. A column that is named twice
has its own group as owner the second time. -/
def checkFrom (cols : Nat) (settings : Settings) (group : Nat) (owners : Array (Option Nat)) :
    List ColumnPlan → Except PlanError (List ColumnPlan)
  | [] => .ok []
  | plan :: rest =>
    if plan.columns.isEmpty then .error (.noColumns group)
    else if !settings.allows plan.encoding then .error (.notEnabled group plan.encoding)
    else
      let columns := plan.columns.mergeSort
      match claim cols group owners columns with
      | .error error => .error error
      | .ok owners =>
        match checkFrom cols settings (group + 1) owners rest with
        | .error error => .error error
        | .ok plans => .ok ({ plan with columns } :: plans)

/-- The same plans with their columns in order, if each has columns, all of them inside, of its own
and of no other plan, and an enabled encoding. -/
def validate (plans : List ColumnPlan) (cols : Nat) (settings : Settings) :
    Except PackError (List ColumnPlan) :=
  (checkFrom cols settings 0 (Array.replicate cols none) plans).mapError .invalidPlan

end ColumnPlan

end PackedMatrix
