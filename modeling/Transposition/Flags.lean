/-!
# Flag words

The auxiliary flags of a bucket share one 16-bit word, in which bit `i` is the flag of slot `i` and
the other bits are spare. Setting one flag leaves the others alone (`Flags.get_set`).
-/

namespace Transposition

/-- A word of sixteen flags. -/
structure Flags where
  /-- Bit `i` is flag `i`. -/
  word : UInt16
  deriving DecidableEq, Repr, Inhabited

namespace Flags

/-- The number of flags in a word. -/
def width : Nat := 16

/-- The word without a flag set. -/
def none : Flags := ⟨0⟩

/-- The flag at a position; beyond the word, no flag is set. -/
def get (f : Flags) (i : Nat) : Bool := f.word.toNat.testBit i

/-- The word in which only the flag at a position below the width is set. -/
def mask (i : Nat) : UInt16 := 1 <<< UInt16.ofNat i

/-- Sets or clears the flag at a position below the width. -/
def set (f : Flags) (i : Nat) (flag : Bool) : Flags :=
  ⟨if flag then f.word ||| mask i else f.word &&& ~~~mask i⟩

/-- The number of flags that are set. -/
def count (f : Flags) : Nat := (List.range width).countP f.get

/-- The bits of a mask. -/
theorem toNat_mask {i : Nat} (hi : i < width) : (mask i).toNat = 1 <<< i := by
  unfold width at hi
  unfold mask
  rw [UInt16.toNat_shiftLeft, UInt16.toNat_ofNat', Nat.mod_eq_of_lt (a := i) (by omega),
    Nat.mod_eq_of_lt (a := i) (by omega)]
  simp only [UInt16.reduceToNat, Nat.one_shiftLeft]
  exact Nat.mod_eq_of_lt (Nat.pow_lt_pow_right (by omega) hi)

/-- A flag reads as it was set, and setting it leaves every other flag of the word as it was. -/
theorem get_set (f : Flags) {i j : Nat} (hi : i < width) (hj : j < width) (flag : Bool) :
    (f.set i flag).get j = if i = j then flag else f.get j := by
  have hm : (mask i).toNat.testBit j = decide (i = j) := by
    rw [toNat_mask hi, Nat.one_shiftLeft, Nat.testBit_two_pow]
  unfold width at hj
  cases flag
  · have hn : (~~~mask i).toNat.testBit j = !decide (i = j) := by
      have hx : (~~~mask i).toNat = 2 ^ 16 - ((mask i).toNat + 1) := by
        rw [UInt16.toNat_not]
        simp only [UInt16.size]
        omega
      rw [hx, Nat.testBit_two_pow_sub_succ (UInt16.toNat_lt _), hm]
      simp [hj]
    simp only [set, get, Bool.false_eq_true, if_false, UInt16.toNat_and, Nat.testBit_and, hn]
    by_cases h : i = j <;> simp [h]
  · simp only [set, get, if_true, UInt16.toNat_or, Nat.testBit_or, hm]
    by_cases h : i = j <;> simp [h]

end Flags

end Transposition
