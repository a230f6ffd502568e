import PackedMatrix.Encoding
import PackedMatrix.Fault

namespace PackedMatrix

/-- The steps of one compression attempt, in the order in which they run. -/
inductive Phase
  | classify
  | coCode
  | transpose
  | compress
  | cleanup
  deriving DecidableEq, Repr, Inhabited

namespace Phase

def all : List Phase := [classify, coCode, transpose, compress, cleanup]

def rank : Phase → Nat
  | classify => 0
  | coCode => 1
  | transpose => 2
  | compress => 3
  | cleanup => 4

def name : Phase → String
  | classify => "classify"
  | coCode => "co-code"
  | transpose => "transpose"
  | compress => "compress"
  | cleanup => "cleanup"

/-- The name of a phase as a record key. -/
def key : Phase → String
  | coCode => "co_code"
  | phase => phase.name

/-- The phase with exactly this record key. -/
def ofKey? (text : String) : Option Phase := all.find? (·.key == text)

end Phase

def bracketed (numbers : List Nat) : String :=
  "[" ++ ", ".intercalate (numbers.map toString) ++ "]"

/-- What is wrong with the cells of a matrix block. -/
inductive MatrixError
  | valueCount (rows cols found : Nat)
  | rowLength (row found expected : Nat)
  | outside (row col rows cols : Nat)
  | columnLimit (cols : Nat)
  | repeated (row col : Nat)
  | denseCount (found rows cols : Nat)
  | rowPointerCount
  | rowPointerOrder
  | rowPointerEnd
  | rowColumns (row : Nat)
  | columnRange (col cols : Nat)
  | rowLimit (rows : Nat)
  deriving DecidableEq, Repr

def MatrixError.message : MatrixError → String
  | valueCount rows cols found =>
    s!"expected {rows * cols} values for a {rows}x{cols} matrix, got {found}"
  | rowLength row found expected => s!"row {row} has {found} values, expected {expected}"
  | outside row col rows cols => s!"cell ({row}, {col}) is outside a {rows}x{cols} matrix"
  | columnLimit cols => s!"{cols} columns exceed the sparse column index range"
  | repeated row col => s!"cell ({row}, {col}) given more than once"
  | denseCount found rows cols => s!"{found} dense values for a {rows}x{cols} matrix"
  | rowPointerCount => "sparse rows: row pointers do not match the row count"
  | rowPointerOrder => "sparse rows: row pointers decrease"
  | rowPointerEnd => "sparse rows: row pointers disagree with the stored cells"
  | rowColumns row => s!"sparse rows: columns of row {row} are unsorted or out of range"
  | columnRange col cols => s!"column {col} out of range for {cols} columns"
  | rowLimit rows => s!"{rows} rows exceed the row index range"

/-- What is wrong with the settings of a compression. -/
inductive SettingsError
  | noEncoding
  | notRequestable (encoding : Encoding)
  | unknownEncoding (text : String)
  | unknownCodec (text : String)
  deriving DecidableEq, Repr

def SettingsError.message : SettingsError → String
  | noEncoding => "at least one compression type must be valid"
  | notRequestable encoding => s!"{encoding.name} cannot be requested for a column group"
  | unknownEncoding text => s!"unknown compression type '{text}'"
  | unknownCodec text => s!"unknown file codec '{text}'"

/-- What is wrong with a bitmap of tuples and their rows. -/
inductive BitmapError
  | width (covered expected : Nat)
  | values (found tuples width : Nat)
  | tooManyOffsets (offsets rows : Nat)
  | emptyList (list : Nat)
  | rowRange (row list : Nat)
  | notIncreasing (list : Nat)
  | shared (row : Nat)
  deriving DecidableEq, Repr

def BitmapError.message : BitmapError → String
  | width covered expected => s!"bitmap covers {covered} columns, group has {expected}"
  | values found tuples columns =>
    s!"{found} values do not form {tuples} tuples of width {columns}"
  | tooManyOffsets offsets rows => s!"{offsets} offsets exceed {rows} rows"
  | emptyList list => s!"offset list {list} is empty"
  | rowRange row list => s!"row {row} out of range in list {list}"
  | notIncreasing list => s!"offset list {list} is not strictly increasing"
  | shared row => s!"row {row} appears in more than one list"

/-- What is wrong with a grouping of columns. -/
inductive PlanError
  | unsorted (columns : List Nat)
  | columnRange (col cols : Nat)
  | noColumns (group : Nat)
  | notEnabled (group : Nat) (encoding : Encoding)
  | groupColumnRange (col group cols : Nat)
  | claimedTwice (col first second : Nat)
  deriving DecidableEq, Repr

def PlanError.message : PlanError → String
  | unsorted columns => s!"column indexes {bracketed columns} are not sorted and unique"
  | columnRange col cols => s!"column {col} out of range for {cols} columns"
  | noColumns group => s!"group {group} has no columns"
  | notEnabled group encoding => s!"group {group} requests {encoding.name}, which is not enabled"
  | groupColumnRange col group cols =>
    s!"column {col} in group {group} is out of range for {cols} columns"
  | claimedTwice col first second => s!"column {col} is claimed by groups {first} and {second}"

/-- What is wrong with a gap-coded row index. -/
inductive RowIndexError
  | anchorCount (anchors entries : Nat)
  | strayGaps
  | truncated (entry : Nat)
  | overflow (entry : Nat)
  | anchor (anchor : Nat)
  | trailing (words : Nat)
  deriving DecidableEq, Repr

def RowIndexError.message : RowIndexError → String
  | anchorCount anchors entries => s!"{anchors} anchors for {entries} entries"
  | strayGaps => "gap stream without entries"
  | truncated entry => s!"gap stream ends before entry {entry}"
  | overflow entry => s!"entry {entry} overflows the row range"
  | anchor place => s!"anchor {place} disagrees with the stream"
  | trailing words => s!"{words} trailing gap words"

/-- A rule between the parts of an encoded matrix that does not hold. -/
inductive Breach
  | excludedList (list lists : Nat)
  | offsetCount (offsets rows : Nat)
  | mergedCount (merged expected : Nat)
  | mergedRow (row rows : Nat)
  | mergedTwice (row : Nat)
  | mergedOrder (row next : Nat)
  | dictionaryShape (values width : Nat)
  | frequentTuple (tuple tuples : Nat)
  | bitWords (entries words : Nat)
  | rowIndex (cause : RowIndexError)
  | denseCodes (entries rows : Nat)
  | rawRows (found expected : Nat)
  | noColumns
  | columnOrder (columns : List Nat)
  | dictionaryWidth (width columns : Nat)
  | codeRange (code tuples : Nat)
  | explicitRow (row rows : Nat)
  | offsetBlockSize (size : Nat)
  | offsetStreamLength (words : Nat)
  | offsetPointers
  | offsetStreamEnd (tuple : Nat)
  | offsetRow (row rows : Nat)
  | runStreamLength (words : Nat)
  | runPointers
  | runEnd (tuple rows : Nat)
  | noSparseTuple
  | decodedRows (decoded expected : Nat)
  | sparseCodes (entries rows : Nat)
  | noDefaultTuple
  | singleTuple (tuples : Nat)
  | constNeedsOne (tuples : Nat)
  | constHolds (tuples : Nat)
  | rawShape (rows cols groupRows groupCols : Nat)
  | groupRows (group rows expected : Nat)
  | coveredTwice (col first second : Nat)
  | strayColumn (group col cols : Nat)
  | uncovered (col : Nat)
  deriving DecidableEq, Repr

def Breach.message : Breach → String
  | excludedList list lists => s!"excluded list {list} out of range for {lists} lists"
  | offsetCount offsets rows => s!"{offsets} offsets exceed {rows} rows"
  | mergedCount merged expected => s!"merged {merged} rows, expected {expected}"
  | mergedRow row rows => s!"row {row} out of range for {rows} rows"
  | mergedTwice row => s!"row {row} appears in more than one offset list"
  | mergedOrder row next => s!"merged rows not strictly increasing at {row} -> {next}"
  | dictionaryShape values width =>
    s!"{values} dictionary values do not form tuples of width {width}"
  | frequentTuple tuple tuples => s!"frequent tuple {tuple} out of range for {tuples} tuples"
  | bitWords entries words => s!"bit mapping of {entries} entries holds {words} words"
  | rowIndex cause => "offset index: " ++ cause.message
  | denseCodes entries rows => s!"DDC mapping holds {entries} entries for {rows} rows"
  | rawRows found expected => s!"raw block has {found} rows, group has {expected}"
  | noColumns => "column group covers no columns"
  | columnOrder columns => s!"column indexes {bracketed columns} are not sorted and unique"
  | dictionaryWidth width columns => s!"dictionary width {width} does not match {columns} columns"
  | codeRange code tuples => s!"mapping index {code} out of range for {tuples} tuples"
  | explicitRow row rows => s!"explicit row {row} out of order or outside {rows} rows"
  | offsetBlockSize size => s!"OLE block size {size} outside 1..=65535"
  | offsetStreamLength words => s!"OLE stream of {words} words exceeds the pointer range"
  | offsetPointers => "OLE stream pointers are inconsistent"
  | offsetStreamEnd tuple => s!"OLE stream of tuple {tuple} is truncated"
  | offsetRow row rows => s!"OLE row {row} outside {rows} rows"
  | runStreamLength words => s!"RLE stream of {words} words exceeds the pointer range"
  | runPointers => "RLE run pointers are inconsistent"
  | runEnd tuple rows => s!"RLE run of tuple {tuple} ends past {rows} rows"
  | noSparseTuple => "SDC needs at least one non-zero tuple"
  | decodedRows decoded expected => s!"SDC index decodes {decoded} rows, expected {expected}"
  | sparseCodes entries rows => s!"SDC mapping holds {entries} entries for {rows} rows"
  | noDefaultTuple => "SDC group has no default tuple"
  | singleTuple tuples => s!"single-value SDC group holds {tuples} tuples"
  | constNeedsOne tuples => s!"constant group needs one tuple, got {tuples}"
  | constHolds tuples => s!"constant group holds {tuples} tuples"
  | rawShape rows cols height width =>
    s!"uncompressed data is {rows}x{cols}, group is {height}x{width}"
  | groupRows group rows expected => s!"group {group} has {rows} rows, matrix has {expected}"
  | coveredTwice col first second => s!"column {col} is covered by groups {first} and {second}"
  | strayColumn group col cols => s!"group {group} covers column {col} of a {cols}-column matrix"
  | uncovered col => s!"column {col} is not covered by any group"

/-- A failure with the context in which it arose. -/
inductive PackError
  | invalidMatrix (cause : MatrixError)
  | invalidSettings (cause : SettingsError)
  | invalidBitmap (columns : List Nat) (cause : BitmapError)
  | unsupported (columns : List Nat) (encoding : Encoding) (tuples offsets rows : Nat)
  | invariant (cause : Breach)
  | invalidPlan (cause : PlanError)
  | construction (columns : List Nat) (encoding : Encoding) (source : PackError)
  | inPhase (phase : Phase) (source : PackError)
  /-- Threads could not be started, for a reason outside; its texts, outermost first. -/
  | threadPool (reasons : List String)
  /-- A computation that has no answer. It stops there, and no context is added. -/
  | fault (cause : Fault)
  deriving DecidableEq, Repr

namespace PackError

def kind : PackError → String
  | invalidMatrix _ => "InvalidMatrix"
  | invalidSettings _ => "InvalidSettings"
  | invalidBitmap .. => "InvalidBitmap"
  | unsupported .. => "Unsupported"
  | invariant _ => "Invariant"
  | invalidPlan _ => "InvalidPlan"
  | construction .. => "Construction"
  | inPhase .. => "Phase"
  | threadPool _ => "ThreadPool"
  | fault _ => "Fault"

/-- An encoding that cannot be used for a group was asked for. -/
def isUnsupported : PackError → Bool
  | unsupported .. => true
  | _ => false

/-- The failure that this one wraps. -/
def source? : PackError → Option PackError
  | construction _ _ source => some source
  | inPhase _ source => some source
  | _ => none

/-- The text of the outermost cause. -/
def message : PackError → String
  | invalidMatrix cause => "invalid matrix: " ++ cause.message
  | invalidSettings cause => "invalid settings: " ++ cause.message
  | invalidBitmap columns cause =>
    "invalid bitmap for columns " ++ bracketed columns ++ ": " ++ cause.message
  | unsupported columns encoding tuples offsets rows =>
    encoding.name ++ " is not supported for columns " ++ bracketed columns ++
      s!": bitmap holds {tuples} distinct non-zero tuples over {offsets} of {rows} rows"
  | invariant cause => "invariant violated: " ++ cause.message
  | invalidPlan cause => "invalid column grouping: " ++ cause.message
  | construction columns encoding _ =>
    "failed to construct " ++ encoding.name ++ " column group over columns " ++ bracketed columns
  | inPhase phase _ => "compression failed in the " ++ phase.name ++ " phase"
  | threadPool _ => "failed to build compression thread pool"
  | fault cause => cause.message

/-- The texts of all causes, outermost first. -/
def chain : PackError → List String
  | construction columns encoding source =>
    message (construction columns encoding source) :: source.chain
  | inPhase phase source => message (inPhase phase source) :: source.chain
  | threadPool reasons => message (threadPool reasons) :: reasons
  | error => [error.message]

def chainText (error : PackError) : String := ": ".intercalate error.chain

/-- Adds the columns and the encoding of the group being built, unless they are already named. -/
def inConstruction (columns : List Nat) (encoding : Encoding) : PackError → PackError
  | error@(construction ..) => error
  | error@(unsupported ..) => error
  | error@(fault _) => error
  | error => construction columns encoding error

/-- Adds the running phase, unless one is already named. -/
def duringPhase (phase : Phase) : PackError → PackError
  | error@(inPhase ..) => error
  | error@(fault _) => error
  | error => inPhase phase error

end PackError

/-- The encoding that a text names, letter case aside. -/
def Encoding.parse (text : String) : Except PackError Encoding :=
  let upper := text.map Char.toUpper
  match Encoding.ofName? upper with
  | some encoding => .ok encoding
  | none => .error (.invalidSettings (.unknownEncoding upper))

/-- The codec that a text names, letter case aside. -/
def Codec.parse (text : String) : Except PackError Codec :=
  let lower := text.map Char.toLower
  match Codec.ofName? lower with
  | some codec => .ok codec
  | none => .error (.invalidSettings (.unknownCodec lower))

end PackedMatrix
