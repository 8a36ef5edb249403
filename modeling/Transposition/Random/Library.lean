import Transposition.Binary64.Basic

/-!
# Libraries of random choices

Random choices come from a library: a state, made from a seed, from which one choice after the other is
drawn. What is drawn is up to the library. That a number drawn from a range lies in it is all that the
programs rely on (`Library.KeepsRanges`).
-/

namespace Transposition.Random

/-- A library of random choices. -/
structure Library where
  /-- What the choices are drawn from. -/
  State : Type
  /-- What the library makes of a probability. -/
  Chance : Type
  /-- The state of a seed. -/
  ofSeed : UInt64 → State
  /-- The chance of a probability between zero and one. -/
  chance : Binary64 → Chance
  /-- Draws any word. -/
  word : State → UInt64 × State
  /-- Draws any word of 16 bits. -/
  shortWord : State → UInt16 × State
  /-- Draws a number below a limit. -/
  below (limit : Nat) : State → Nat × State
  /-- Draws an integer from the first to the last of a range. -/
  integer (first last : Int32) : State → Int32 × State
  /-- Draws whether an event of a given chance happens. -/
  event (chance : Chance) : State → Bool × State

namespace Library

/-- What is drawn from a range that is not empty lies in it. -/
structure KeepsRanges (lib : Library) : Prop where
  /-- A number drawn below a positive limit is below it. -/
  below {limit : Nat} (h : 0 < limit) (s : lib.State) : (lib.below limit s).1 < limit
  /-- An integer drawn from a range is neither before the first nor after the last. -/
  integer {first last : Int32} (h : first.toInt ≤ last.toInt) (s : lib.State) :
    first.toInt ≤ (lib.integer first last s).1.toInt ∧
      (lib.integer first last s).1.toInt ≤ last.toInt

/-- Draws that many words. -/
def words (lib : Library) (n : Nat) (s : lib.State) : Array UInt64 × lib.State :=
  n.repeat
    (fun (found, s) =>
      let (word, s) := lib.word s
      (found.push word, s))
    (Array.emptyWithCapacity n, s)

end Library

end Transposition.Random
