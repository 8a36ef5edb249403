import Transposition.Decimal.Rounding

/-!
# Binary floating-point numbers of 64 bits

A finite number is a significand of at most 53 bits times a power of two whose exponent is at least
-1074. Every operation takes the exact rational result and rounds it once, to the nearest number,
ties to an even significand (`Binary64.ofRatio`).
-/

namespace Transposition

/-- A binary floating-point number. -/
inductive Binary64
  /-- No number. -/
  | nan
  /-- An infinity. -/
  | infinite (negative : Bool)
  /-- `significand * 2 ^ exponent`, with a sign that zero has too. -/
  | finite (negative : Bool) (significand : Nat) (exponent : Int)
  deriving DecidableEq, Repr, Inhabited

namespace Binary64

/-- The number of bits of a significand. -/
def precision : Nat := 53

/-- The exponent of the smallest numbers. -/
def minExponent : Int := -1074

/-- The exponent of the largest numbers. -/
def maxExponent : Int := 971

/-- Zero with a sign. -/
def zero (negative : Bool) : Binary64 := .finite negative 0 minExponent

/-- The binary logarithm of a positive quotient, rounded down. -/
def log2Ratio (num den : Nat) : Int :=
  let guess : Int := (num.log2 : Int) - den.log2
  if den <<< guess.toNat ≤ num <<< (-guess).toNat then guess else guess - 1

/-- The number nearest to a quotient, with a sign. -/
def ofRatio (negative : Bool) (num den : Nat) : Binary64 :=
  if num = 0 then zero negative
  else
    let exponent := max minExponent (log2Ratio num den - (precision - 1 : Nat))
    let significand :=
      Decimal.roundDiv (num <<< (-exponent).toNat) (den <<< exponent.toNat)
    let (significand, exponent) :=
      if significand = 1 <<< precision then (1 <<< (precision - 1), exponent + 1)
      else (significand, exponent)
    if maxExponent < exponent then .infinite negative
    else .finite negative significand exponent

/-- The number nearest to a natural number. -/
def ofNat (n : Nat) : Binary64 := ofRatio false n 1

/-- The size of a finite number as a quotient of naturals. -/
def ratio (significand : Nat) (exponent : Int) : Nat × Nat :=
  (significand <<< exponent.toNat, 1 <<< (-exponent).toNat)

/-- The product of two numbers that are not negative. -/
def mul : Binary64 → Binary64 → Binary64
  | .finite _ m e, .finite _ n f =>
    let (a, b) := ratio m e
    let (c, d) := ratio n f
    ofRatio false (a * c) (b * d)
  | .nan, _ => .nan
  | _, .nan => .nan
  | _, _ => .infinite false

/-- The quotient of two numbers that are not negative, the second of them finite and positive. -/
def div : Binary64 → Binary64 → Binary64
  | .finite _ m e, .finite _ n f =>
    let (a, b) := ratio m e
    let (c, d) := ratio n f
    ofRatio false (a * d) (b * c)
  | .infinite _, .finite _ _ _ => .infinite false
  | _, _ => .nan

/-- Whether a number lies between zero and one, both included. Negative zero does. -/
def InUnitInterval : Binary64 → Prop
  | .finite negative m e => m = 0 ∨ negative = false ∧ (ratio m e).1 ≤ (ratio m e).2
  | _ => False

instance : (x : Binary64) → Decidable x.InUnitInterval
  | .finite _ _ _ => inferInstanceAs (Decidable (_ ∨ _ ∧ _))
  | .nan => inferInstanceAs (Decidable False)
  | .infinite _ => inferInstanceAs (Decidable False)

/-- The size of a number times a factor, rounded down; zero for what is no finite number. -/
def scaledFloor (factor : Nat) : Binary64 → Nat
  | .finite _ m e => (ratio m e).1 * factor / (ratio m e).2
  | _ => 0

end Binary64

end Transposition
