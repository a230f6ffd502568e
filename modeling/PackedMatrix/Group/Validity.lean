import PackedMatrix.Group

namespace PackedMatrix

namespace Group

/-- The first row that does not lie behind the last one, or not below the bound. -/
def firstStray (rows : Nat) (last : Option Nat) : List Nat → Option Nat
  | [] => none
  | row :: rest =>
    if row ≥ rows ∨ last.any (· ≥ row) = true then some row else firstStray rows (some row) rest

/-- Listed rows are decoded without fault, increase, lie inside, and have one code each. -/
def checkIndex (rows : Nat) (index : RowIndex) (codes : Option CodeMap) : Except PackError Unit :=
  match index.validate with
  | .error error => .error error
  | .ok _ =>
    match index.rows with
    | .error _ => .error (.invariant (.decodedRows 0 index.length))
    | .ok listed =>
      match firstStray rows none listed with
      | some row => .error (.invariant (.explicitRow row rows))
      | none =>
        if listed.length ≠ index.length then
          .error (.invariant (.decodedRows listed.length index.length))
        else
          match codes with
          | none => .ok ()
          | some codes =>
            if codes.length ≠ listed.length then
              .error (.invariant (.sparseCodes codes.length listed.length))
            else .ok ()

/-- The parts of the body fit each other and the group. -/
def checkBody (group : Group) : Except PackError Unit :=
  let rows := group.rows
  match group.body with
  | .empty => .ok ()
  | .const dictionary =>
    if dictionary.tuples ≠ 1 then .error (.invariant (.constHolds dictionary.tuples)) else .ok ()
  | .ddc _ codes =>
    if codes.length ≠ rows then .error (.invariant (.denseCodes codes.length rows)) else .ok ()
  | .ole dictionary offsets => (offsets.check dictionary.tuples rows).mapError .invariant
  | .rle dictionary runs => (RunStreams.check runs dictionary.tuples rows).mapError .invariant
  | .sdc dictionary index codes =>
    if dictionary.tuples = 0 then .error (.invariant .noDefaultTuple)
    else checkIndex rows index (some codes)
  | .sdcZeros _ index codes => checkIndex rows index (some codes)
  | .sdcSingle dictionary index =>
    if dictionary.tuples = 0 ∨ dictionary.tuples > 2 then
      .error (.invariant (.singleTuple dictionary.tuples))
    else checkIndex rows index none
  | .sdcSingleZeros dictionary index =>
    if dictionary.tuples ≠ 1 then .error (.invariant (.singleTuple dictionary.tuples))
    else checkIndex rows index none
  | .uncompressed block =>
    match block.validate with
    | .error error => .error error
    | .ok _ =>
      if block.rows ≠ rows ∨ block.cols ≠ group.columns.length then
        .error (.invariant (.rawShape block.rows block.cols rows group.columns.length))
      else .ok ()

def checkDictionary (group : Group) : Except PackError Unit :=
  match group.body.dictionary? with
  | none => .ok ()
  | some dictionary =>
    match dictionary.validate with
    | .error error => .error error
    | .ok _ =>
      if dictionary.width ≠ group.columns.length then
        .error (.invariant (.dictionaryWidth dictionary.width group.columns.length))
      else .ok ()

def checkCodes (group : Group) : Except PackError Unit :=
  match group.body.dictionary?, group.body.codes? with
  | some dictionary, some codes =>
    match codes.maxCode? with
    | some code =>
      if code ≥ dictionary.tuples then .error (.invariant (.codeRange code dictionary.tuples))
      else .ok ()
    | none => .ok ()
  | _, _ => .ok ()

/-- The fields of a group fit together. -/
def validate (group : Group) : Except PackError Unit := do
  if group.columns.isEmpty then throw (.invariant .noColumns)
  if ¬ group.columns.Pairwise (· < ·) then throw (.invariant (.columnOrder group.columns))
  group.checkDictionary
  match group.body.codes? with
  | some codes => codes.validate
  | none => pure ()
  group.checkBody
  group.checkCodes

end Group

end PackedMatrix
