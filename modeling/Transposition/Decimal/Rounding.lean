/-!
# Rounding a quotient

The nearest natural number to a quotient of two. A quotient half way between two numbers goes to the
even one.
-/

namespace Transposition.Decimal

/-- The natural number nearest to `num / den`; of two that are equally near, the even one. -/
def roundDiv (num den : Nat) : Nat :=
  let q := num / den
  let twice := 2 * (num % den)
  if twice < den then q
  else if den < twice then q + 1
  else q + q % 2

/-- The rounded quotient is at most half a unit away from the quotient. -/
theorem roundDiv_near (num den : Nat) (h : 0 < den) :
    2 * (roundDiv num den * den) ≤ 2 * num + den ∧
      2 * num ≤ 2 * (roundDiv num den * den) + den := by
  have hm := Nat.mod_lt num h
  have hq := Nat.div_add_mod num den
  rw [Nat.mul_comm] at hq
  have hs : (num / den + 1) * den = num / den * den + den := Nat.succ_mul _ _
  unfold roundDiv
  dsimp only
  split
  · omega
  · split
    · omega
    · rcases Nat.mod_two_eq_zero_or_one (num / den) with h0 | h1
      · rw [h0, Nat.add_zero]
        omega
      · rw [h1]
        omega

end Transposition.Decimal
