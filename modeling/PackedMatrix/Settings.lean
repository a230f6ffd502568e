import PackedMatrix.Error

namespace PackedMatrix

/-- When the input is transposed before its columns are read. -/
inductive TransposeMode
  /-- For tall matrices and for groupings into many small groups. -/
  | auto
  | always
  | never
  deriving DecidableEq, Repr, Inhabited

namespace TransposeMode

def all : List TransposeMode := [auto, always, never]

def name : TransposeMode → String
  | auto => "auto"
  | always => "always"
  | never => "never"

/-- The mode with exactly this name. -/
def ofName? (text : String) : Option TransposeMode := all.find? (·.name == text)

end TransposeMode

/-- What a caller can choose. -/
structure Settings where
  parallelism : Nat := 1
  transposeInput : TransposeMode := .auto
  transposeRowThreshold : Nat := 1000000
  /-- The encodings to choose from. -/
  encodings : List Encoding := Encoding.requestable
  /-- Whether the tuples of a bitmap are put in order of frequency before they are encoded. -/
  sortByFrequency : Bool := true
  /-- Rows in one block of an offset list. -/
  offsetBlockSize : Nat := 65535
  /-- Whether the estimates of the groups are added up and recorded. -/
  investigateEstimate : Bool := false
  /-- Whether the input is handed back when a phase fails. -/
  fallbackOnError : Bool := false
  codec : Codec := .zstd
  deriving DecidableEq, Repr, Inhabited

namespace Settings

def minOffsetBlockSize : Nat := 64

/-- The largest block of an offset list; places in a block have to fit 16 bits. -/
def maxOffsetBlockSize : Nat := 65535

/-- A request for one encoding is allowed. -/
def allows (settings : Settings) (encoding : Encoding) : Bool :=
  settings.encodings.contains encoding

/-- The listed encodings in their order, each once. -/
def orderedEncodings (encodings : List Encoding) : List Encoding :=
  Encoding.all.filter encodings.contains

/-- Settings in range, or what is wrong with them. -/
def normalize (settings : Settings) : Except PackError Settings :=
  if settings.encodings.isEmpty then .error (.invalidSettings .noEncoding)
  else
    match settings.encodings.find? (!·.isRequestable) with
    | some encoding => .error (.invalidSettings (.notRequestable encoding))
    | none =>
      .ok { settings with
        offsetBlockSize := max minOffsetBlockSize (min maxOffsetBlockSize settings.offsetBlockSize)
        parallelism := max 1 settings.parallelism
        encodings := orderedEncodings settings.encodings }

/-- Whether the input is transposed before its columns are read. By itself this pays off if there
are many rows, or many groups. -/
def shouldTranspose (settings : Settings) (rows cols groups : Nat) : Bool :=
  match settings.transposeInput with
  | .always => true
  | .never => false
  | .auto => rows > settings.transposeRowThreshold || groups > cols / 2

end Settings

end PackedMatrix
