/-!
# Key to bucket addressing

A key of 64 bits is mapped onto `0 .. n-1` by `key * n / 2^64`, which spreads uniform keys over any
number of buckets without a division. The low 16 bits of the key tell apart the positions that share
a bucket.
-/

namespace Transposition

/-- The high 64 bits of the product of two 64-bit words. -/
def mulHigh (a b : UInt64) : UInt64 := UInt64.ofNat (a.toNat * b.toNat / UInt64.size)

/-- The bucket of a key in a table of a given number of buckets. -/
def bucketIndex (key : UInt64) (count : Nat) : Nat := key.toNat * count / UInt64.size

/-- The part of a key that is stored in its entry. -/
def entryKey (key : UInt64) : UInt16 := key.toUInt16

/-- The high word of a product is its quotient by `2^64`, which fits a word. -/
@[simp]
theorem toNat_mulHigh (a b : UInt64) : (mulHigh a b).toNat = a.toNat * b.toNat / UInt64.size := by
  have ha := a.toNat_lt
  have hb := b.toNat_lt
  have h : a.toNat * b.toNat ≤ (UInt64.size - 1) * (UInt64.size - 1) :=
    Nat.mul_le_mul (Nat.le_sub_one_of_lt ha) (Nat.le_sub_one_of_lt hb)
  unfold mulHigh
  rw [UInt64.toNat_ofNat']
  simp only [UInt64.size] at h ⊢
  omega

/-- The bucket of a key is one of the table's. -/
theorem bucketIndex_lt (key : UInt64) {count : Nat} (h : 0 < count) :
    bucketIndex key count < count := by
  unfold bucketIndex
  rw [Nat.div_lt_iff_lt_mul (by decide), Nat.mul_comm]
  exact Nat.mul_lt_mul_of_pos_left key.toNat_lt h

/-- For a number of buckets that fits a word, the bucket of a key is the high word of the product of
key and number. -/
theorem bucketIndex_toNat (key count : UInt64) :
    bucketIndex key count.toNat = (mulHigh key count).toNat := by
  rw [toNat_mulHigh, bucketIndex]

end Transposition
