/-!
# Scores

Search and evaluation scores. A score is a 32-bit number, of which the table keeps 16 bits; the
scores that a search produces fit (`Score.Fits`), and the others are reduced modulo `2^16`.
-/

namespace Transposition

/-- A search or evaluation score. -/
structure Score where
  /-- The score as a number. -/
  raw : Int32
  deriving DecidableEq, Repr

namespace Score

/-- The score of an even position. -/
def zero : Score := ⟨0⟩

/-- The score of a drawn game. -/
def draw : Score := ⟨0⟩

/-- The largest score of a won game. -/
def mate : Score := ⟨32000⟩

/-- A score above every score that a search can reach. -/
def infinite : Score := ⟨32001⟩

/-- The mark for "no score". -/
def none : Score := ⟨32002⟩

instance : Inhabited Score := ⟨zero⟩

/-- Whether the score survives being stored in 16 bits. -/
def Fits (s : Score) : Prop := -32768 ≤ s.raw.toInt ∧ s.raw.toInt ≤ 32767

instance (s : Score) : Decidable s.Fits := inferInstanceAs (Decidable (_ ∧ _))

/-- The 16 bits that are stored of a score. -/
def toInt16 (s : Score) : Int16 := s.raw.toInt16

/-- The score that 16 stored bits stand for. -/
def ofInt16 (bits : Int16) : Score := ⟨bits.toInt32⟩

/-- Scores in ascending order; equal ones keep their places. -/
def sort (scores : List Score) : List Score :=
  scores.mergeSort fun a b => decide (a.raw ≤ b.raw)

/-- The score as a signed decimal number. -/
def text (s : Score) : String := toString s.raw.toInt

end Score

end Transposition
