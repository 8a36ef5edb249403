import Transposition.Bound
import Transposition.Depth
import Transposition.Move
import Transposition.Score

/-!
# Search records

What a search hands to the table about a position, and what the table hands back.
-/

namespace Transposition

/-- The result of a search of one position. -/
structure Record where
  /-- The best or refuting move. -/
  move : Move
  /-- The search value. -/
  value : Score
  /-- The static evaluation. -/
  eval : Score
  /-- The depth that was searched. -/
  depth : Depth
  /-- How the value relates to the true result. -/
  bound : Bound
  /-- Whether the position lay on the principal variation. -/
  pv : Bool
  /-- An auxiliary flag of the search. -/
  cut : Bool
  deriving DecidableEq, Repr

/-- The record that stands for "nothing is stored". -/
def Record.absent : Record where
  move := Move.none
  value := Score.none
  eval := Score.none
  depth := Depth.offset
  bound := .none
  pv := false
  cut := false

instance : Inhabited Record := ⟨Record.absent⟩

end Transposition
