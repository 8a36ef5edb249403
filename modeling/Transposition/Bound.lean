/-!
# Bounds

How a stored score relates to the true result of a search. A bound is kept in two bits: bit 0 says
that the score is an upper bound, bit 1 that it is a lower bound, so `exact` is both at once.
-/

namespace Transposition

/-- How a stored score relates to the true search result. -/
inductive Bound
  /-- Nothing is known. -/
  | none
  /-- The search failed low: the score is an upper bound. -/
  | upper
  /-- The search failed high: the score is a lower bound. -/
  | lower
  /-- The score is the true result. -/
  | exact
  deriving DecidableEq, Repr, Inhabited

namespace Bound

/-- The two bits that stand for a bound. -/
def toBits : Bound → UInt8
  | .none => 0
  | .upper => 1
  | .lower => 2
  | .exact => 3

/-- The bound in the low two bits of a byte; the other bits are ignored. -/
def ofBits (bits : UInt8) : Bound :=
  match bits.toNat % 4 with
  | 0 => .none
  | 1 => .upper
  | 2 => .lower
  | _ => .exact

/-- Whether the score can be used as a lower bound. -/
def isLower (b : Bound) : Bool := b.toBits &&& lower.toBits != 0

/-- Whether the score can be used as an upper bound. -/
def isUpper (b : Bound) : Bool := b.toBits &&& upper.toBits != 0

/-- The two bits of a bound give the bound back. -/
@[simp]
theorem ofBits_toBits (b : Bound) : ofBits b.toBits = b := by cases b <;> rfl

/-- The two bits of a bound are below four. -/
theorem toBits_lt (b : Bound) : b.toBits.toNat < 4 := by cases b <;> decide

/-- An exact score is a bound on both sides. -/
theorem isLower_and_isUpper_iff (b : Bound) : (b.isLower && b.isUpper) = true ↔ b = .exact := by
  cases b <;> decide

end Bound

end Transposition
