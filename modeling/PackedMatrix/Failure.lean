import PackedMatrix.Error

namespace PackedMatrix

/-- A failure to report. -/
structure Failure where
  /-- What was being done, outermost first. -/
  context : List String
  /-- What a layer below had to say: the system, a decoder or a parser. -/
  detail : Option String := none
  deriving DecidableEq, Repr, Inhabited

namespace Failure

def ofText (text : String) : Failure := ⟨[text], none⟩

/-- The failure inside something else that was being done. -/
def within (failure : Failure) (text : String) : Failure :=
  { failure with context := text :: failure.context }

/-- Everything that is known, outermost first. -/
def text (failure : Failure) : String := ": ".intercalate (failure.context ++ failure.detail.toList)

end Failure

def PackError.failure (error : PackError) : Failure := ⟨error.chain, none⟩

end PackedMatrix
