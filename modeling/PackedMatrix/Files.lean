namespace PackedMatrix

/-- The content of a file, or why it cannot be had. -/
inductive FileContent
  /-- The file cannot be opened. -/
  | closed (reason : String)
  /-- The file is open, but cannot be read. -/
  | unreadable (reason : String)
  | bytes (content : List UInt8)
  deriving Repr, Inhabited

/-- The files that a command can read, by their paths. -/
abbrev Files : Type := String → FileContent

/-- The bytes of a file, or what its failure means to the reader. -/
def FileContent.get {ε : Type} (closed unreadable : String → ε) :
    FileContent → Except ε (List UInt8)
  | .closed reason => .error (closed reason)
  | .unreadable reason => .error (unreadable reason)
  | .bytes content => .ok content

end PackedMatrix
