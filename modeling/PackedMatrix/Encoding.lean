namespace PackedMatrix

/-- How the cells of a column group are stored. -/
inductive Encoding
  /-- All cells are zero and nothing is stored. -/
  | empty
  /-- Every row holds the same tuple. -/
  | const
  /-- Dense dictionary coding: one code for every row. -/
  | ddc
  /-- Offset lists: the rows of each tuple, block by block. -/
  | ole
  /-- Run lengths: the rows of each tuple as gaps and runs. -/
  | rle
  /-- Sparse dictionary coding: codes for the rows that differ from a default tuple. -/
  | sdc
  /-- The cells themselves. -/
  | uncompressed
  deriving DecidableEq, Repr, Inhabited

namespace Encoding

/-- Every encoding, in the order in which they are listed and compared. -/
def all : List Encoding := [empty, const, ddc, ole, rle, sdc, uncompressed]

/-- The encodings a caller may ask for; the other two are found, not asked for. -/
def requestable : List Encoding := [ddc, ole, rle, sdc, uncompressed]

def isRequestable (encoding : Encoding) : Bool := requestable.contains encoding

def rank : Encoding → Nat
  | empty => 0
  | const => 1
  | ddc => 2
  | ole => 3
  | rle => 4
  | sdc => 5
  | uncompressed => 6

def ofRank? : Nat → Option Encoding
  | 0 => some empty
  | 1 => some const
  | 2 => some ddc
  | 3 => some ole
  | 4 => some rle
  | 5 => some sdc
  | 6 => some uncompressed
  | _ => none

@[simp] theorem ofRank?_rank (encoding : Encoding) : ofRank? encoding.rank = some encoding := by
  cases encoding <;> rfl

theorem rank_injective {a b : Encoding} (h : a.rank = b.rank) : a = b := by
  have := congrArg ofRank? h
  simpa using this

def name : Encoding → String
  | empty => "EMPTY"
  | const => "CONST"
  | ddc => "DDC"
  | ole => "OLE"
  | rle => "RLE"
  | sdc => "SDC"
  | uncompressed => "UNCOMPRESSED"

/-- The encoding with exactly this name. -/
def ofName? (text : String) : Option Encoding := all.find? (·.name == text)

end Encoding

/-- How the payloads of a stored file are packed. -/
inductive Codec
  /-- Payloads are stored as they are. -/
  | plain
  | zstd
  | lz4
  deriving DecidableEq, Repr, Inhabited

namespace Codec

def all : List Codec := [plain, zstd, lz4]

def rank : Codec → Nat
  | plain => 0
  | zstd => 1
  | lz4 => 2

def ofRank? : Nat → Option Codec
  | 0 => some plain
  | 1 => some zstd
  | 2 => some lz4
  | _ => none

@[simp] theorem ofRank?_rank (codec : Codec) : ofRank? codec.rank = some codec := by
  cases codec <;> rfl

def name : Codec → String
  | plain => "none"
  | zstd => "zstd"
  | lz4 => "lz4"

/-- The capitalised name, for reports about a file. -/
def title : Codec → String
  | plain => "None"
  | zstd => "Zstd"
  | lz4 => "Lz4"

/-- The codec with exactly this name. -/
def ofName? (text : String) : Option Codec := all.find? (·.name == text)

end Codec

end PackedMatrix
