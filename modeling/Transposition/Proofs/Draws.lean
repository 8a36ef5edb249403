import Mathlib.Algebra.Group.Int.Defs
import Mathlib.Algebra.Group.Nat.Defs
import Transposition.Random.Draw
import Transposition.Stress.Trial

/-!
# What trials are drawn

With a library that keeps to the ranges it is asked for, a trial that is drawn lies in the ranges of
trials (`Trial.inRange_draw`), whichever keys are shared and whatever their share is. What is proved of
stress runs uses nothing else of the library, so it is proved for all trials in these ranges. The choices
made from the words of a generator are such a library (`Generator.keepsRanges_library`).
-/

namespace Transposition

/-! ## Choices from the words of a generator -/

namespace Random

section Scaled

variable {count : Nat} {draw : Generator → Nat × Generator} (hdraw : ∀ g, (draw g).1 < count)
include hdraw

/-- A number that is scaled to a positive limit is below it. -/
theorem scaled_lt {limit : Nat} (h : 0 < limit) (g : Generator) :
    (scaled count draw limit g).1 < limit := by
  have hx := hdraw g
  unfold scaled
  generalize draw g = d at hx
  obtain ⟨x, g'⟩ := d
  dsimp only at hx ⊢
  have hcount : 0 < count := Nat.zero_lt_of_lt hx
  have hproduct : x * limit ≤ count * limit - limit := by
    calc x * limit ≤ (count - 1) * limit := Nat.mul_le_mul_right _ (by omega)
      _ = count * limit - limit := by rw [Nat.sub_mul, Nat.one_mul]
  have hparts := Nat.div_add_mod (x * limit) count
  have hhigh : x * limit / count < limit := by
    rw [Nat.div_lt_iff_lt_mul hcount, Nat.mul_comm limit]
    have hle : limit ≤ count * limit := Nat.le_mul_of_pos_left _ hcount
    omega
  split
  · rename_i hlow
    split
    · -- The high half is not the last number below the limit when the low half is that large.
      rcases Nat.lt_or_ge (x * limit / count + 1) limit with hlt | hge
      · exact hlt
      · have hlast : x * limit / count = limit - 1 := by omega
        have hprevious : count * (limit - 1) = count * limit - count := by
          rw [Nat.mul_sub, Nat.mul_one]
        have hle : count ≤ count * limit := Nat.le_mul_of_pos_right _ h
        rw [hlast] at hparts
        omega
    · exact hhigh
  · exact hhigh

end Scaled

/-- A half word is below its count. -/
theorem half_lt (g : Generator) : (half g).1 < halfCount := by
  have h := g.next.1.toNat_lt
  simp only [half, halfCount, UInt32.size, UInt64.toNat_shiftRight, UInt64.reduceToNat, Nat.reduceMod,
    Nat.shiftRight_eq_div_pow]
  omega

/-- A number drawn below a positive limit is below it. -/
theorem below_lt {limit : Nat} (h : 0 < limit) (g : Generator) : (below limit g).1 < limit := by
  unfold below
  split
  · exact scaled_lt half_lt h g
  · exact scaled_lt (fun g => g.next.1.toNat_lt) h g

/-- An integer drawn from a range lies in it. -/
theorem integer_within {first last : Int32} (h : first.toInt ≤ last.toInt) (g : Generator) :
    first.toInt ≤ (integer first last g).1.toInt ∧ (integer first last g).1.toInt ≤ last.toInt := by
  have hfirst := first.le_toInt
  have hlast := last.toInt_lt
  have hbelow := below_lt (show 0 < (last.toInt - first.toInt + 1).toNat by omega) g
  show first.toInt ≤ (Int32.ofInt (first.toInt + (below _ g).1)).toInt ∧
    (Int32.ofInt (first.toInt + (below _ g).1)).toInt ≤ last.toInt
  generalize (below (last.toInt - first.toInt + 1).toNat g).1 = n at hbelow ⊢
  rw [Int32.toInt_ofInt_of_le (by omega) (by omega)]
  omega

/-- The choices made from the words of a generator keep to their ranges. -/
theorem Generator.keepsRanges_library : Generator.library.KeepsRanges where
  below h g := below_lt h g
  integer h g := integer_within h g

end Random

/-! ## Trials -/

namespace Stress.Trial

/-- The record of a trial lies in the ranges that trials are drawn from. -/
structure InRange (trial : Trial) : Prop where
  /-- The depth is from 0 to 39. -/
  depth : 0 ≤ trial.record.depth.toInt ∧ trial.record.depth.toInt < 40
  /-- There is a bound. -/
  bound : trial.record.bound ≠ .none
  /-- The value is within the limit. -/
  value : -scoreLimit ≤ trial.record.value.raw.toInt ∧ trial.record.value.raw.toInt ≤ scoreLimit
  /-- The evaluation is within the limit. -/
  eval : -scoreLimit ≤ trial.record.eval.raw.toInt ∧ trial.record.eval.raw.toInt ≤ scoreLimit

variable {random : Random.Library}

/-- A bound that is drawn is one. -/
theorem drawBound_ne_none (s : random.State) : (drawBound random s).1 ≠ .none := by
  show (if (random.integer 0 2 s).1 = 0 then Bound.upper
    else if (random.integer 0 2 s).1 = 1 then .lower else .exact) ≠ .none
  split
  · simp
  · split <;> simp

section Ranges

variable (h : random.KeepsRanges)
include h

/-- A score that is drawn is within the limit. -/
theorem drawScore_within (s : random.State) :
    -scoreLimit ≤ (drawScore random s).1.raw.toInt ∧
      (drawScore random s).1.raw.toInt ≤ scoreLimit :=
  h.integer (show (-1000 : Int32).toInt ≤ (1000 : Int32).toInt by decide) s

/-- A trial that is drawn lies in the ranges. -/
theorem inRange_draw (hot : Array UInt64) (chances : Chances random) (s : random.State) :
    (draw random hot chances s).1.InRange := by
  refine ⟨?_, drawBound_ne_none _, drawScore_within h _, drawScore_within h _⟩
  obtain ⟨hlow, hhigh⟩ := h.integer (show (0 : Int32).toInt ≤ (39 : Int32).toInt by decide)
    (drawKey random hot chances.hot s).2
  exact ⟨hlow, Int.lt_add_one_of_le hhigh⟩

end Ranges

end Stress.Trial

end Transposition
