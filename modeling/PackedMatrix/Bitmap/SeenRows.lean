import PackedMatrix.CodeMap

namespace PackedMatrix

/-- One bit for each of so many rows, in as many 64-bit words as these take, lowest bit first. -/
structure SeenRows (rows : Nat) where
  words : Array UInt64
  size_words : words.size = CodeMap.wordsFor rows

namespace SeenRows

variable {rows : Nat}

/-- No row was seen yet. -/
def start (rows : Nat) : SeenRows rows :=
  ⟨Array.replicate (CodeMap.wordsFor rows) 0, Array.size_replicate⟩

theorem div_lt_size (seen : SeenRows rows) (row : Fin rows) : row / 64 < seen.words.size := by
  have := row.isLt
  rw [seen.size_words, CodeMap.wordsFor]
  omega

/-- The word that has the bit of a row. -/
def word (seen : SeenRows rows) (row : Fin rows) : UInt64 :=
  have := seen.div_lt_size row
  seen.words[row.val / 64]

def has (seen : SeenRows rows) (row : Fin rows) : Bool :=
  seen.word row &&& (1 <<< UInt64.ofNat (row % 64)) != 0

def add (seen : SeenRows rows) (row : Fin rows) : SeenRows rows where
  words := seen.words.set (row / 64) (CodeMap.putBit (seen.word row) (row % 64) true)
    (seen.div_lt_size row)
  size_words := by rw [Array.size_set, seen.size_words]

end SeenRows

end PackedMatrix
