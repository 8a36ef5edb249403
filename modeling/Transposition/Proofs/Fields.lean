import Mathlib.Tactic.Common
import Transposition.Entry

/-!
# What the packed fields give back

A record is packed into the ten bytes of an entry, and this module says what each field reads as
afterwards. Scores come back reduced modulo `2^16`, and depths clamped. The stamp shares its byte
between the generation, the node kind and the bound: as long as the low bits of the generation are
zero, the byte is the sum of the three (`Stamp.toNat_make`), and each can be read from it.
-/

namespace Transposition

/-- The bits that a generation must leave zero are its remainder by eight. -/
theorem lowBits_eq_zero_iff (generation : UInt8) :
    lowBits generation = 0 ↔ generation.toNat % 8 = 0 := by
  have hmask : (~~~generationMask).toNat = 2^3 - 1 := by decide
  rw [← UInt8.toNat_inj, lowBits, UInt8.toNat_and, hmask, Nat.and_two_pow_sub_one_eq_mod]
  rfl

/-! ## Scores and depths -/

/-- A score is read back as the number from `-2^15` to `2^15 - 1` that it is congruent to. -/
theorem Score.toInt_ofInt16_toInt16 (s : Score) :
    (ofInt16 s.toInt16).raw.toInt = s.raw.toInt.bmod UInt16.size := by
  show s.raw.toInt16.toInt32.toInt = _
  rw [Int16.toInt_toInt32, Int32.toInt_toInt16]

/-- The biased depth is the clamped depth without its bias. -/
theorem Depth.biased_eq (d : Depth) : (biased d : Int) = clamp d + 3 := by
  have hb := biased_bounds d
  unfold biased at hb ⊢
  rw [toInt_offset] at hb ⊢
  omega

/-! ## Stamps -/

/-- The low bits of a stamp: the node kind above the bound. -/
theorem Stamp.toNat_low (pv : Bool) (bound : Bound) :
    ((if pv then 4 else 0) ||| bound.toBits : UInt8).toNat =
      (if pv then 4 else 0) + bound.toBits.toNat := by
  cases pv <;> cases bound <;> rfl

/-- A stamp is the sum of its three parts if the low bits of the generation are zero. -/
theorem Stamp.toNat_make {generation : UInt8} (hg : generation.toNat % 8 = 0) (pv : Bool)
    (bound : Bound) :
    (make generation pv bound).byte.toNat =
      generation.toNat + ((if pv then 4 else 0) + bound.toBits.toNat) := by
  have hlt : (if pv then 4 else 0) + bound.toBits.toNat < 2^3 := by
    have hbits := bound.toBits_lt
    split <;> omega
  have hdiv : generation.toNat = 2^3 * (generation.toNat / 8) := by omega
  unfold make
  rw [UInt8.or_assoc, UInt8.toNat_or, toNat_low, hdiv, Nat.two_pow_add_eq_or_of_lt hlt]

/-- The bound of a stamp is the one that it was made with. -/
theorem Stamp.bound_make {generation : UInt8} (hg : generation.toNat % 8 = 0) (pv : Bool)
    (b : Bound) : (make generation pv b).bound = b := by
  have hbits := b.toBits_lt
  have hlow : (make generation pv b).byte.toNat % 4 = b.toBits.toNat % 4 := by
    rw [toNat_make hg]
    split <;> omega
  have hof : (make generation pv b).bound = Bound.ofBits b.toBits := by
    unfold Stamp.bound Bound.ofBits
    rw [hlow]
  rw [hof, Bound.ofBits_toBits]

/-- The node kind of a stamp is the one that it was made with. -/
theorem Stamp.isPv_make {generation : UInt8} (hg : generation.toNat % 8 = 0) (pv : Bool)
    (b : Bound) : (make generation pv b).isPv = pv := by
  have hbits := b.toBits_lt
  have hbit : (make generation pv b).byte.toNat / 4 % 2 = if pv then 1 else 0 := by
    rw [toNat_make hg]
    split <;> omega
  unfold isPv
  rw [hbit]
  cases pv <;> rfl

end Transposition
