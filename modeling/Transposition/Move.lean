/-!
# Moves

A move is an opaque 16-bit code. The table reads only whether there is one: code zero is
`Move.none`.
-/

namespace Transposition

/-- The best or refuting move of a position, in a code that only the search understands. -/
structure Move where
  /-- The code; zero means "no move". -/
  code : UInt16
  deriving DecidableEq, Repr, Inhabited

namespace Move

/-- No move. -/
def none : Move := ⟨0⟩

/-- Whether there is no move. -/
def isNone (m : Move) : Bool := m == none

end Move

end Transposition
