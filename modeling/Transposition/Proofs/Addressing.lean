import Mathlib.Algebra.Order.Floor.Div
import Mathlib.Data.Set.Card
import Mathlib.Order.Interval.Finset.Nat
import Transposition.Addressing

/-!
# How keys are spread over the buckets

The keys of a bucket are an interval. It begins at `bucketStart count i`, the first number `x` for
which `x * count` is at least `i * 2^64`, and ends where that of the next bucket begins
(`bucketIndex_eq_iff`). As far as `2^64` can be divided into equal parts, the intervals are of one
length: each holds `2^64 / count` keys, rounded down or up (`bucketStart_succ`).

In a table of at most `2^48` buckets an interval has room for all 16-bit patterns, so that what is
stored of a key says nothing about its bucket (`exists_key_of_bucket`).
-/

namespace Transposition

/-- The first key of a bucket, among `count` buckets. -/
def bucketStart (count i : Nat) : Nat := (i * 2^64) ⌈/⌉ count

variable {count i : Nat}

/-- A key belongs to a bucket or to a later one exactly if it is not below the bucket's first. -/
theorem le_bucketIndex_iff (h : 0 < count) (key : UInt64) :
    i ≤ bucketIndex key count ↔ bucketStart count i ≤ key.toNat := by
  show i ≤ key.toNat * count / 2^64 ↔ _
  unfold bucketStart
  rw [Nat.le_div_iff_mul_le (by decide), ceilDiv_le_iff_le_mul h, Nat.mul_comm count]

/-- The keys of a bucket are those from its first up to the first of the next. -/
theorem bucketIndex_eq_iff (h : 0 < count) (key : UInt64) :
    bucketIndex key count = i ↔
      bucketStart count i ≤ key.toNat ∧ key.toNat < bucketStart count (i + 1) := by
  rw [← le_bucketIndex_iff h, ← Nat.not_le, ← le_bucketIndex_iff h]
  omega

/-- A larger key belongs to the same bucket or to a later one. -/
theorem bucketIndex_mono {key key' : UInt64} (h : key ≤ key') (count : Nat) :
    bucketIndex key count ≤ bucketIndex key' count :=
  Nat.div_le_div_right (Nat.mul_le_mul_right count (UInt64.le_iff_toNat_le.mp h))

/-- A sum divided and rounded up is at least the one part rounded up and the other down, and at
most both rounded up. -/
theorem ceilDiv_add_bounds {n : Nat} (hn : 0 < n) (a b : Nat) :
    a ⌈/⌉ n + b / n ≤ (a + b) ⌈/⌉ n ∧ (a + b) ⌈/⌉ n ≤ a ⌈/⌉ n + b ⌈/⌉ n := by
  have ha : a ≤ n * (a ⌈/⌉ n) := (ceilDiv_le_iff_le_mul hn).mp le_rfl
  have hb : b ≤ n * (b ⌈/⌉ n) := (ceilDiv_le_iff_le_mul hn).mp le_rfl
  have hab : a + b ≤ n * ((a + b) ⌈/⌉ n) := (ceilDiv_le_iff_le_mul hn).mp le_rfl
  have hfloor : n * (b / n) ≤ b := Nat.mul_div_le b n
  constructor
  · -- What is left of the sum without the multiple of `n` below `b` is still at least `a`.
    have hle : b / n ≤ (a + b) ⌈/⌉ n := by
      refine Nat.le_of_mul_le_mul_left ?_ hn
      omega
    have hrest : a ⌈/⌉ n ≤ (a + b) ⌈/⌉ n - b / n := by
      rw [ceilDiv_le_iff_le_mul hn, Nat.mul_sub]
      omega
    omega
  · rw [ceilDiv_le_iff_le_mul hn, Nat.mul_add]
    omega

/-- A quotient rounded up is the one rounded down or the number after it. -/
theorem div_le_ceilDiv_le {n : Nat} (hn : 0 < n) (a : Nat) :
    a / n ≤ a ⌈/⌉ n ∧ a ⌈/⌉ n ≤ a / n + 1 := by
  constructor
  · rw [← Nat.floorDiv_eq_div]
    exact floorDiv_le_ceilDiv
  · rw [ceilDiv_le_iff_le_mul hn]
    exact (Nat.lt_mul_div_succ a hn).le

/-- From the first key of a bucket to that of the next it is the quotient, rounded down or up. -/
theorem bucketStart_succ (h : 0 < count) (i : Nat) :
    bucketStart count (i + 1) = bucketStart count i + 2^64 / count ∨
      bucketStart count (i + 1) = bucketStart count i + 2^64 ⌈/⌉ count := by
  obtain ⟨hlow, hhigh⟩ := ceilDiv_add_bounds h (i * 2^64) (2^64)
  obtain ⟨-, hnext⟩ := div_le_ceilDiv_le h (2^64)
  unfold bucketStart
  rw [Nat.succ_mul]
  -- The two roundings are at most one apart, and so nothing lies between the bounds.
  omega

/-- The keys of the buckets do not go beyond those of 64 bits. -/
theorem bucketStart_le (h : 0 < count) (hi : i ≤ count) : bucketStart count i ≤ 2^64 := by
  unfold bucketStart
  rw [ceilDiv_le_iff_le_mul h]
  exact Nat.mul_le_mul_right _ hi

/-- An interval of numbers of 64 bits has as many keys as it is long. -/
theorem ncard_keys {first size : Nat} (h : first + size ≤ 2^64) :
    {key : UInt64 | first ≤ key.toNat ∧ key.toNat < first + size}.ncard = size := by
  have himage : UInt64.toNat '' {key : UInt64 | first ≤ key.toNat ∧ key.toNat < first + size} =
      (Finset.Ico first (first + size) : Set Nat) := by
    ext x
    simp only [Set.mem_image, Set.mem_ofPred_eq, Finset.coe_Ico, Set.mem_Ico]
    constructor
    · rintro ⟨key, hkey, rfl⟩
      exact hkey
    · intro hx
      have hkey : (UInt64.ofNat x).toNat = x := UInt64.toNat_ofNat_of_lt' (show x < 2^64 by omega)
      exact ⟨UInt64.ofNat x, by rw [hkey]; exact hx, hkey⟩
  have hinjective : Function.Injective UInt64.toNat := fun _ _ => UInt64.toNat_inj.mp
  rw [← Set.ncard_image_of_injective _ hinjective, himage, Set.ncard_coe_finset, Nat.card_Ico]
  omega

/-- Of `2^16` numbers in a row one has the low bits that are asked for. -/
theorem exists_mod_eq {low : Nat} (h : low < 2^16) (first : Nat) :
    ∃ x, first ≤ x ∧ x < first + 2^16 ∧ x % 2^16 = low :=
  ⟨first + (low + 2^16 - first % 2^16) % 2^16, by omega, by omega, by omega⟩

/-- With at most `2^48` buckets, every bucket has a key for each pattern of the stored bits. -/
theorem exists_key_of_bucket (h : 0 < count) (hcount : count ≤ 2^48) (hi : i < count)
    (low : UInt16) : ∃ key, bucketIndex key count = i ∧ entryKey key = low := by
  have hsize : 2^16 ≤ 2^64 / count := by
    rw [Nat.le_div_iff_mul_le h]
    calc 2^16 * count ≤ 2^16 * 2^48 := Nat.mul_le_mul_left _ hcount
      _ = 2^64 := by decide
  have hend := bucketStart_le h (show i + 1 ≤ count from hi)
  have hnext := div_le_ceilDiv_le h (2^64)
  -- Even a bucket of the smaller size has a key for every residue modulo `2^16`.
  have hlength : bucketStart count i + 2^16 ≤ bucketStart count (i + 1) := by
    have hsucc := bucketStart_succ h i
    omega
  obtain ⟨x, hfirst, hlast, hlow⟩ := exists_mod_eq low.toNat_lt (bucketStart count i)
  have hkey : (UInt64.ofNat x).toNat = x := UInt64.toNat_ofNat_of_lt' (show x < 2^64 by omega)
  refine ⟨UInt64.ofNat x, (bucketIndex_eq_iff h _).mpr (by omega), UInt16.toNat_inj.mp ?_⟩
  rw [entryKey, UInt64.toNat_toUInt16, hkey, hlow]

/-- With a positive number of buckets below `2^64`, the number of a key's bucket is that of one of
them; it is the high word of the product of the key and their number, and a larger key never gets an
earlier bucket. The keys of each bucket are those of an interval that is not empty, and there are
`2^64` divided by the number of buckets of them, rounded down or up. If there are at most `2^48`
buckets, then each of them, with each pattern of 16 bits, is the bucket and the stored part of some
key. -/
theorem buckets_share_keys_evenly (h : 0 < count) (hlt : count < 2^64) :
    (∀ key, bucketIndex key count < count ∧
      bucketIndex key count = (mulHigh key (UInt64.ofNat count)).toNat) ∧
    (∀ key key', key ≤ key' → bucketIndex key count ≤ bucketIndex key' count) ∧
    (∀ i < count, ∃ first size, 0 < size ∧ (size = 2^64 / count ∨ size = 2^64 ⌈/⌉ count) ∧
      first + size ≤ 2^64 ∧
      (∀ key : UInt64, bucketIndex key count = i ↔ first ≤ key.toNat ∧ key.toNat < first + size) ∧
      {key | bucketIndex key count = i}.ncard = size) ∧
    (count ≤ 2^48 →
      ∀ i < count, ∀ low, ∃ key, bucketIndex key count = i ∧ entryKey key = low) := by
  refine ⟨fun key => ⟨bucketIndex_lt key h, ?_⟩, fun key key' hle => bucketIndex_mono hle count,
    fun i hi => ?_, fun hcount i hi low => exists_key_of_bucket h hcount hi low⟩
  · have hword : (UInt64.ofNat count).toNat = count := UInt64.toNat_ofNat_of_lt' hlt
    have hproduct := bucketIndex_toNat key (UInt64.ofNat count)
    rwa [hword] at hproduct
  · have hend : bucketStart count (i + 1) ≤ 2^64 := bucketStart_le h hi
    have hpos : 0 < 2^64 / count := Nat.div_pos hlt.le h
    obtain ⟨hnext, -⟩ := div_le_ceilDiv_le h (2^64)
    obtain ⟨size, hsucc, hsize⟩ : ∃ size,
        bucketStart count (i + 1) = bucketStart count i + size ∧
          (size = 2^64 / count ∨ size = 2^64 ⌈/⌉ count) := by
      rcases bucketStart_succ h i with hsucc | hsucc
      · exact ⟨_, hsucc, Or.inl rfl⟩
      · exact ⟨_, hsucc, Or.inr rfl⟩
    have hkeys (key : UInt64) : bucketIndex key count = i ↔
        bucketStart count i ≤ key.toNat ∧ key.toNat < bucketStart count i + size := by
      rw [bucketIndex_eq_iff h, hsucc]
    refine ⟨bucketStart count i, size, by omega, hsize, by omega, hkeys, ?_⟩
    simp only [hkeys]
    exact ncard_keys (by omega)

/-- Three buckets, whose number does not divide that of the keys: the last one gets a third of them,
rounded down or up, and one of its keys ends in sixteen set bits. -/
theorem buckets_share_keys_evenly_three :
    0 < 3 ∧ 3 < 2^64 ∧ (∀ key, bucketIndex key 3 < 3) ∧
      ({key | bucketIndex key 3 = 2}.ncard = 6148914691236517205 ∨
        {key | bucketIndex key 3 = 2}.ncard = 6148914691236517206) ∧
      ∃ key, bucketIndex key 3 = 2 ∧ entryKey key = 0xFFFF := by
  obtain ⟨hindex, -, hshares, hpatterns⟩ :=
    @buckets_share_keys_evenly 3 (by decide) (by decide)
  refine ⟨by decide, by decide, fun key => (hindex key).1, ?_,
    hpatterns (by decide) 2 (by decide) 0xFFFF⟩
  obtain ⟨first, size, -, hsize, -, -, hcard⟩ := hshares 2 (by decide)
  rw [hcard]
  rcases hsize with rfl | rfl
  · exact Or.inl rfl
  · exact Or.inr rfl

end Transposition
