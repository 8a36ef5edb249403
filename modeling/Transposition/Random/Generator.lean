/-!
# A generator of random words

A state of four words, seeded from one, whose outputs pass for random 64-bit words (xoshiro256++,
seeded by SplitMix64). The seed is stretched to a state by a counter whose values are mixed; each
output then mixes two words of the state, and the state is moved on by shifts and exclusive ors.
-/

namespace Transposition.Random

/-- A word rotated to the left by a number of bits between 1 and 63. -/
def rotateLeft (x n : UInt64) : UInt64 := x <<< n ||| x >>> (64 - n)

/-- The step of the counter that stretches a seed. -/
def seedStep : UInt64 := 0x9E3779B97F4A7C15

/-- Mixes a value of the counter into a word. -/
def mix (x : UInt64) : UInt64 :=
  let x := (x ^^^ x >>> 30) * 0xBF58476D1CE4E5B9
  let x := (x ^^^ x >>> 27) * 0x94D049BB133111EB
  x ^^^ x >>> 31

/-- The state of the generator. -/
structure Generator where
  /-- The first word. -/
  s0 : UInt64
  /-- The second word. -/
  s1 : UInt64
  /-- The third word. -/
  s2 : UInt64
  /-- The fourth word. -/
  s3 : UInt64
  deriving DecidableEq, Repr, Inhabited

namespace Generator

/-- The generator of a seed. -/
def ofSeed (seed : UInt64) : Generator where
  s0 := mix (seed + seedStep)
  s1 := mix (seed + 2 * seedStep)
  s2 := mix (seed + 3 * seedStep)
  s3 := mix (seed + 4 * seedStep)

/-- The next word, and the generator after it. -/
def next (g : Generator) : UInt64 × Generator :=
  let word := rotateLeft (g.s0 + g.s3) 23 + g.s0
  let s2 := g.s2 ^^^ g.s0
  let s3 := g.s3 ^^^ g.s1
  (word,
    { s0 := g.s0 ^^^ s3
      s1 := g.s1 ^^^ s2
      s2 := s2 ^^^ g.s1 <<< 17
      s3 := rotateLeft s3 45 })

end Generator

end Transposition.Random
