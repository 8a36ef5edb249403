import Transposition.Proofs.Bucket

/-!
# Probes and writes as accesses to one bucket

Every operation on a table between two clears reads one bucket or replaces one. A probe answers what
a look-up of the key's bucket finds (`Table.probe_eq_ok_iff`), and a write that no check stops puts
the saved bucket where it was (`Table.write_eq_none_iff`). Neither can miss the array in a table
whose number of buckets is that of its array (`Table.Sound`).
-/

namespace Transposition.Table

/-- The table with one bucket replaced. -/
def setBucket (t : Table) (number : Nat) (b : Bucket) : Table :=
  { t with buckets := t.buckets.setIfInBounds number b }

@[simp]
theorem bucketCount_setBucket (t : Table) (number : Nat) (b : Bucket) :
    (t.setBucket number b).bucketCount = t.bucketCount := rfl

@[simp]
theorem generation_setBucket (t : Table) (number : Nat) (b : Bucket) :
    (t.setBucket number b).generation = t.generation := rfl

@[simp]
theorem params_setBucket (t : Table) (number : Nat) (b : Bucket) :
    (t.setBucket number b).params = t.params := rfl

@[simp]
theorem size_setBucket (t : Table) (number : Nat) (b : Bucket) :
    (t.setBucket number b).buckets.size = t.buckets.size :=
  Array.size_setIfInBounds

@[simp]
theorem indexOf_setBucket (t : Table) (number : Nat) (b : Bucket) (key : UInt64) :
    (t.setBucket number b).indexOf key = t.indexOf key := rfl

/-- The replaced bucket of a table that has one of that number. -/
theorem getElem?_setBucket_self {t : Table} {number : Nat} {old : Bucket}
    (h : t.buckets[number]? = some old) (b : Bucket) :
    (t.setBucket number b).buckets[number]? = some b :=
  Array.getElem?_setIfInBounds_self_of_lt (Array.getElem?_eq_some_iff.mp h).1

/-- The other buckets stay. -/
theorem getElem?_setBucket_of_ne (t : Table) {number n : Nat} (h : n ≠ number) (b : Bucket) :
    (t.setBucket number b).buckets[n]? = t.buckets[n]? :=
  Array.getElem?_setIfInBounds_ne (Ne.symm h)

/-- A bucket of the table with one replaced is that one or an old one. -/
theorem getElem?_setBucket_cases {t : Table} {number n : Nat} {old b c : Bucket}
    (h : t.buckets[number]? = some old) (hc : (t.setBucket number b).buckets[n]? = some c) :
    (n = number ∧ c = b) ∨ (n ≠ number ∧ t.buckets[n]? = some c) := by
  by_cases hn : n = number
  · rw [hn, getElem?_setBucket_self h, Option.some.injEq] at hc
    exact Or.inl ⟨hn, hc.symm⟩
  · rw [getElem?_setBucket_of_ne t hn] at hc
    exact Or.inr ⟨hn, hc⟩

/-! ## Finding the bucket -/

/-- The bucket of a number, if there is one. -/
theorem bucketAt_eq_ok_iff (t : Table) (number : Nat) (b : Bucket) :
    t.bucketAt number = .ok b ↔ t.buckets[number]? = some b := by
  unfold bucketAt
  split <;> simp_all

/-- The number of buckets is that of the array, and there is at least one. -/
structure Sound (t : Table) : Prop where
  /-- The array has as many buckets as keys are spread over. -/
  size : t.buckets.size = t.bucketCount
  /-- There is a bucket. -/
  pos : 0 < t.bucketCount

/-- In a sound table every key has a bucket. -/
theorem Sound.exists_bucket {t : Table} (h : t.Sound) (key : UInt64) :
    ∃ b, t.buckets[t.indexOf key]? = some b := by
  have hlt : t.indexOf key < t.buckets.size := by
    rw [h.size]
    exact bucketIndex_lt key h.pos
  exact ⟨_, Array.getElem?_eq_getElem hlt⟩

/-- In a sound table every key's bucket can be had. -/
theorem Sound.exists_bucketOf {t : Table} (h : t.Sound) (key : UInt64) :
    ∃ b, t.bucketOf key = .ok b := by
  obtain ⟨b, hb⟩ := h.exists_bucket key
  exact ⟨b, (bucketAt_eq_ok_iff _ _ _).mpr hb⟩

/-! ## Probes -/

/-- A probe answers what the look-up in the key's bucket finds. -/
theorem probe_eq_ok_iff (t : Table) (key : UInt64) (p : Probe) :
    t.probe key = .ok p ↔ ∃ b, t.buckets[t.indexOf key]? = some b ∧
      p.writer.bucket = t.indexOf key ∧
      b.lookup t.params t.generation (entryKey key) = ⟨p.found, p.record, p.writer.slot⟩ := by
  unfold probe bucketOf
  constructor
  · intro h
    cases hb : t.bucketAt (t.indexOf key) with
    | error fault => simp [hb, Except.map] at h
    | ok b =>
      simp only [hb, Except.map, Except.ok.injEq] at h
      subst h
      exact ⟨b, (bucketAt_eq_ok_iff _ _ _).mp hb, rfl, rfl⟩
  · rintro ⟨b, hb, hw, hl⟩
    rw [(bucketAt_eq_ok_iff _ _ _).mpr hb]
    simp only [Except.map, hl, ← hw]

/-- In a sound table every probe is answered. -/
theorem Sound.exists_probe {t : Table} (h : t.Sound) (key : UInt64) : ∃ p, t.probe key = .ok p := by
  obtain ⟨b, hb⟩ := h.exists_bucketOf key
  unfold probe
  rw [hb]
  exact ⟨_, rfl⟩

/-! ## Writes -/

/-- A write that no check stops replaces its bucket by the saved one. -/
theorem write_eq_none_iff (checks : Checks) (w : Writer) (key : UInt64) (generation : UInt8)
    (r : Record) (t t' : Table) :
    t.write checks w key generation r = (t', none) ↔
      ∃ b, t.buckets[w.bucket]? = some b ∧
        (b.trySave checks t.params (entryKey key) generation r w.slot).fault = none ∧
        t' = t.setBucket w.bucket (b.save t.params (entryKey key) generation r w.slot) := by
  unfold write
  constructor
  · intro h
    cases hb : t.bucketAt w.bucket with
    | error fault => simp [hb] at h
    | ok b =>
      simp only [hb, Prod.mk.injEq] at h
      -- Without a fault, what the attempt leaves is the saved bucket.
      refine ⟨b, (bucketAt_eq_ok_iff _ _ _).mp hb, h.2, ?_⟩
      rw [← Bucket.bucket_trySave h.2]
      exact h.1.symm
  · rintro ⟨b, hb, hf, rfl⟩
    rw [(bucketAt_eq_ok_iff _ _ _).mpr hb]
    simp only [hf, Bucket.bucket_trySave hf]
    rfl

/-- A write to a bucket of the table returns if no check stops it. -/
theorem write_eq_none {checks : Checks} {t : Table} {w : Writer} {b : Bucket} {generation : UInt8}
    {r : Record} (hb : t.buckets[w.bucket]? = some b) (key : UInt64)
    (h : checks = .off ∨ generation.toNat % 8 = 0 ∧ Entry.Admissible r) :
    t.write checks w key generation r =
      (t.setBucket w.bucket (b.save t.params (entryKey key) generation r w.slot), none) := by
  obtain ⟨ha, hs⟩ := Entry.faults_eq_none h
  exact (write_eq_none_iff _ _ _ _ _ _ _).mpr ⟨b, hb, Bucket.fault_trySave_eq_none ha hs, rfl⟩

end Transposition.Table
