import Transposition.Random.Generator
import Transposition.Random.Library

/-!
# Draws

Random choices made from the words of a generator: a half word, a number below a limit, an integer from
a range, an event of a given probability. A number below a limit is the high half of a product with the
limit; a second word settles the rare cases in which the low half leaves it open (`scaled_lt` says that
the limit is kept). Together they are a library of random choices (`Generator.library`).
-/

namespace Transposition.Random

/-- The number of values of a half word. -/
def halfCount : Nat := UInt32.size

/-- The upper half of the next word, as a number. -/
def half (g : Generator) : Nat × Generator :=
  let (word, g) := g.next
  ((word >>> 32).toNat, g)

/-- The next word, as a number. -/
def whole (g : Generator) : Nat × Generator :=
  let (word, g) := g.next
  (word.toNat, g)

/-- A number below a positive limit, made from one or two numbers that are drawn below a count. -/
def scaled (count : Nat) (draw : Generator → Nat × Generator) (limit : Nat) (g : Generator) :
    Nat × Generator :=
  let (x, g) := draw g
  let product := x * limit
  let (high, low) := (product / count, product % count)
  if count - limit < low then
    let (y, g) := draw g
    (if count ≤ low + y * limit / count then high + 1 else high, g)
  else (high, g)

/-- A number below a positive limit: from half words if the limit fits one, and else from words. -/
def below (limit : Nat) (g : Generator) : Nat × Generator :=
  if limit < halfCount then scaled halfCount half limit g else scaled UInt64.size whole limit g

/-- An integer from the first to the last of a range. -/
def integer (first last : Int32) (g : Generator) : Int32 × Generator :=
  let (n, g) := below (last.toInt - first.toInt + 1).toNat g
  (Int32.ofInt (first.toInt + n), g)

/-- A chance of an event: certain, or the number of words of `2 ^ 64` for which it happens. -/
inductive Chance
  /-- The event happens, and no word is drawn. -/
  | certain
  /-- The event happens if the word drawn is below the threshold. -/
  | below (threshold : Nat)
  deriving DecidableEq, Repr

/-- The chance of a probability between zero and one. -/
def Chance.ofProbability (p : Binary64) : Chance :=
  let threshold := p.scaledFloor UInt64.size
  if threshold = UInt64.size then .certain else .below threshold

/-- Whether an event of a given chance happens. -/
def event (chance : Chance) (g : Generator) : Bool × Generator :=
  match chance with
  | .certain => (true, g)
  | .below threshold =>
    let (word, g) := g.next
    (decide (word.toNat < threshold), g)

/-- The lower 16 bits of a half word. -/
def shortWord (g : Generator) : UInt16 × Generator :=
  let (n, g) := half g
  (UInt16.ofNat n, g)

/-- The choices that are made from the words of a generator. -/
def Generator.library : Library where
  State := Generator
  Chance := Chance
  ofSeed := Generator.ofSeed
  chance := Chance.ofProbability
  word := Generator.next
  shortWord := Random.shortWord
  below := Random.below
  integer := Random.integer
  event := Random.event

end Transposition.Random
