import Transposition.Bound

/-!
# Generations and stamps

The table counts searches in a byte, the generation, which advances by `generationStep = 8` and so
leaves its low three bits zero. Each entry carries a stamp of one byte: the five generation bits of
its last overwrite above one bit for principal-variation nodes and two bits for the bound. An
entry's age is the distance of the two generations modulo `2^8`, a multiple of eight
(`Stamp.age_le`); the three low bits of the stamp never borrow into it (`Stamp.age_eq`).
-/

namespace Transposition

/-- The number of low bits of a stamp that do not belong to the generation. -/
def generationBits : Nat := 3

/-- What a new search adds to the generation. -/
def generationStep : UInt8 := 8

/-- What is added to a generation before a stamp is subtracted from it: the largest byte, so that
the difference is not negative, and one step more. -/
def generationCycle : Nat := 263

/-- The generation bits of a stamp. -/
def generationMask : UInt8 := 0xF8

/-- The bits of a byte that a generation must leave zero. -/
def lowBits (generation : UInt8) : UInt8 := generation &&& ~~~generationMask

/-- The byte that says when an entry was written, from what kind of node, and with which bound. -/
structure Stamp where
  /-- Generation in bits 3 to 7, principal variation in bit 2, bound in bits 0 and 1. -/
  byte : UInt8
  deriving DecidableEq, Repr, Inhabited

namespace Stamp

/-- The stamp of a write. Low bits of the generation, which should be zero, run into the others. -/
def make (generation : UInt8) (pv : Bool) (bound : Bound) : Stamp :=
  ⟨generation ||| (if pv then 4 else 0) ||| bound.toBits⟩

/-- The bound in a stamp. -/
def bound (s : Stamp) : Bound := Bound.ofBits s.byte

/-- Whether the stamp is that of a principal-variation node. -/
def isPv (s : Stamp) : Bool := s.byte.toNat / 4 % 2 == 1

/-- How far the stamp's generation lies behind a generation: a multiple of eight, zero for the
current one. The sum with `generationCycle` keeps the difference positive, and the low bits are cut
off after it. -/
def age (s : Stamp) (generation : UInt8) : Nat :=
  (generationCycle + generation.toNat - s.byte.toNat) / 8 % 32 * 8

/-- An age is at most 248. -/
theorem age_le (s : Stamp) (generation : UInt8) : s.age generation ≤ 248 := by
  unfold age
  omega

/-- For a generation whose low bits are zero, the age is eight times the distance of the five
generation bits on their circle of 32. -/
theorem age_eq (s : Stamp) (generation : UInt8) (h : generation.toNat % 8 = 0) :
    s.age generation = (generation.toNat / 8 + 32 - s.byte.toNat / 8) % 32 * 8 := by
  have := generation.toNat_lt
  have := s.byte.toNat_lt
  unfold age generationCycle
  omega

end Stamp

end Transposition
