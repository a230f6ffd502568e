import PackedMatrix.Files

namespace PackedMatrix

/-- Why a path does not lead to a file. -/
inductive PathError
  | missing
  | notDirectory
  | isDirectory
  | tooLong
  deriving DecidableEq, Repr

def PathError.message : PathError → String
  | missing => "No such file or directory (os error 2)"
  | notDirectory => "Not a directory (os error 20)"
  | isDirectory => "Is a directory (os error 21)"
  | tooLong => "File name too long (os error 36)"

/-- Files under the names on the way to them. -/
structure Directory where
  files : List (List String × List UInt8) := []
  deriving Repr, Inhabited

namespace Directory

/-- Where a path has led to. -/
inductive Place
  | outside
  /-- The names on the way to a file or a directory. -/
  | inside (names : List String)
  deriving DecidableEq, Repr

def maxName : Nat := 255

def maxPath : Nat := 4095

def file? (directory : Directory) (names : List String) : Option (List UInt8) :=
  (directory.files.find? (·.1 == names)).map Prod.snd

def holds (directory : Directory) (names : List String) : Bool :=
  names.isEmpty || directory.files.any fun file =>
    file.1.take names.length == names && file.1.length > names.length

/-- The place is a directory. -/
def check (directory : Directory) : Place → Except PathError Unit
  | .outside => .ok ()
  | .inside names =>
    if directory.holds names then .ok ()
    else if (directory.file? names).isSome then .error .notDirectory
    else .error .missing

/-- The place one name further. -/
def step (directory : Directory) (place : Place) (name : String) : Except PathError Place := do
  directory.check place
  if name = "" ∨ name = "." then pure place
  else if name.utf8ByteSize > maxName then throw .tooLong
  else
    match place with
    | .outside => if name = ".." then pure .outside else throw .missing
    | .inside names =>
      if name = ".." then pure (if names.isEmpty then .outside else .inside names.dropLast)
      else
        let further := names ++ [name]
        if directory.holds further ∨ (directory.file? further).isSome then pure (.inside further)
        else throw .missing

/-- The names of a path, and the place where it starts. -/
def split (path : String) : Except PathError (Place × List String) :=
  if path.isEmpty then .error .missing
  else if path.utf8ByteSize > maxPath then .error .tooLong
  else .ok (if path.startsWith "/" then .outside else .inside [], path.splitOn "/")

/-- What comes back when the file at the end of a path is read. -/
def read (directory : Directory) : Files := fun path =>
  let found : Except PathError (List UInt8) := do
    let (start, names) ← split path
    let place ← names.foldlM directory.step start
    match place with
    | .outside => throw .isDirectory
    | .inside names =>
      match directory.file? names with
      | some content => pure content
      | none => throw .isDirectory
  match found with
  | .ok content => .bytes content
  | .error .isDirectory => .unreadable PathError.isDirectory.message
  | .error error => .closed error.message

/-- The directory with a file under the names on the way to it. -/
def put (directory : Directory) (names : List String) (content : List UInt8) : Directory :=
  ⟨(names, content) :: directory.files.filter (·.1 != names)⟩

/-- The directory with a file at the end of a path. A path that ends with a slash is refused. -/
def write (directory : Directory) (path : String) (content : List UInt8) :
    Except PathError Directory := do
  let (start, names) ← split path
  let kept := (names.reverse.dropWhile (· == "")).reverse
  let place ← kept.dropLast.foldlM directory.step start
  directory.check place
  match kept.getLast?, place with
  | none, _ => throw .isDirectory
  | some name, place =>
    if name = "." ∨ name = ".." ∨ kept.length < names.length then throw .isDirectory
    else if name.utf8ByteSize > maxName then throw .tooLong
    else
      match place with
      | .outside => throw .missing
      | .inside way =>
        if directory.holds (way ++ [name]) then throw .isDirectory
        else pure (directory.put (way ++ [name]) content)

/-- The directory with the given files; of two with one name the later one counts. -/
def ofFiles (files : List (String × List UInt8)) : Directory :=
  files.foldl (fun directory file => directory.put (file.1.splitOn "/") file.2) {}

end Directory

end PackedMatrix
