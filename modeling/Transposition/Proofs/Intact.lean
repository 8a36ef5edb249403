import Transposition.Proofs.Run
import Transposition.Proofs.Setup
import Transposition.Session.Table

/-!
# Intact tables

What every request keeps true of a created table (`Table.Intact`): the three records of its size, which
are the number of buckets, the length of their array and the bytes that they lie in, agree; the low
bits of the generation are zero; and the parameters are those that were checked when it was created.

Between two clears only what the buckets hold can change, apart from the generation
(`Table.SameFrame`). What a clear or a resize leaves is known outright (`Table.table_clearBy`,
`Table.resize_eq`).
-/

namespace Transposition.Table

variable {checks : Checks} {params : Replacement} {t t' : Table}

/-! ## What writes leave alone -/

/-- The second table differs from the first at most in what its buckets hold. -/
def SameFrame (t t' : Table) : Prop :=
  ∃ buckets : Array Bucket, buckets.size = t.buckets.size ∧ t' = { t with buckets }

theorem SameFrame.refl (t : Table) : t.SameFrame t := ⟨t.buckets, rfl, rfl⟩

theorem SameFrame.trans {t'' : Table} (h : t.SameFrame t') (h' : t'.SameFrame t'') :
    t.SameFrame t'' := by
  obtain ⟨_, hsize, rfl⟩ := h
  obtain ⟨buckets, hsize', rfl⟩ := h'
  exact ⟨buckets, hsize'.trans hsize, rfl⟩

theorem SameFrame.generation_eq (h : t.SameFrame t') : t'.generation = t.generation := by
  obtain ⟨_, -, rfl⟩ := h
  rfl

theorem SameFrame.bucketCount_eq (h : t.SameFrame t') : t'.bucketCount = t.bucketCount := by
  obtain ⟨_, -, rfl⟩ := h
  rfl

theorem sameFrame_setBucket (t : Table) (number : Nat) (b : Bucket) :
    t.SameFrame (t.setBucket number b) :=
  ⟨_, Array.size_setIfInBounds, rfl⟩

/-- A relation of two tables that is reflexive and transitive, and that every write into a slot satisfies,
even if it is stopped. -/
structure KeptByWrites (checks : Checks) (R : Table → Table → Prop) : Prop where
  /-- A table is related to itself. -/
  refl (t : Table) : R t t
  /-- What happens one after the other is related at the ends. -/
  trans {t t' t'' : Table} (h : R t t') (h' : R t' t'') : R t t''
  /-- A write into a slot of a bucket is related to the table before it. -/
  store {t : Table} {number : Nat} {b : Bucket} (hb : t.buckets[number]? = some b)
    (p : Replacement) (key : UInt16) (generation : UInt8) (r : Record) (slot : Slot) :
    R t (t.setBucket number (b.trySave checks p key generation r slot).bucket)

section KeptByWrites

variable {R : Table → Table → Prop} (hR : KeptByWrites checks R)

include hR

/-- A write through a writer. -/
theorem KeptByWrites.write (w : Writer) (key : UInt64) (generation : UInt8) (r : Record) (t : Table) :
    R t (t.write checks w key generation r).1 := by
  unfold Table.write
  split
  · exact hR.refl t
  · rename_i b hb
    exact hR.store ((bucketAt_eq_ok_iff _ _ _).mp hb) _ _ _ _ _

/-- Writes into the slots of one bucket. -/
theorem KeptByWrites.fillSlots (number : Nat) (key : UInt16) (generation : UInt8) (r : Record)
    (list : List Slot) (t : Table) : R t (t.fillSlots checks number key generation r list).1 := by
  induction list generalizing t with
  | nil => exact hR.refl t
  | cons slot rest ih =>
    unfold Table.fillSlots
    split
    · exact hR.refl t
    · rename_i b hb
      have hstore := hR.store ((bucketAt_eq_ok_iff _ _ _).mp hb) t.params
        (key + UInt16.ofNat slot.val) generation r slot
      dsimp only
      split
      · exact hstore
      · exact hR.trans hstore (ih _)

/-- Writes into every slot of some buckets. -/
theorem KeptByWrites.fill (key : UInt16) (generation : UInt8) (r : Record) (first count : Nat)
    (t : Table) : R t (t.fill checks key generation r first count).1 := by
  induction count generalizing first t with
  | zero => exact hR.refl t
  | succ count ih =>
    have hslots := hR.fillSlots first key generation r slots t
    unfold Table.fill
    split
    · rename_i heq
      rwa [heq] at hslots
    · rename_i heq
      rw [heq] at hslots
      exact hR.trans hslots (ih _ _)

end KeptByWrites

/-- Writes leave everything but the buckets alone. -/
theorem keptByWrites_sameFrame (checks : Checks) : KeptByWrites checks SameFrame :=
  ⟨.refl, .trans, fun _ _ _ _ _ _ => sameFrame_setBucket _ _ _⟩

/-- A write leaves everything but a bucket alone, even if it is stopped. -/
theorem sameFrame_write (checks : Checks) (w : Writer) (key : UInt64) (generation : UInt8)
    (r : Record) (t : Table) : t.SameFrame (t.write checks w key generation r).1 :=
  (keptByWrites_sameFrame checks).write w key generation r t

/-- Writes into every slot of some buckets leave everything but the buckets alone. -/
theorem sameFrame_fill (checks : Checks) (key : UInt16) (generation : UInt8) (r : Record)
    (first count : Nat) (t : Table) : t.SameFrame (t.fill checks key generation r first count).1 :=
  (keptByWrites_sameFrame checks).fill key generation r first count t

/-! ## Unchecked writes -/

/-- There is a bucket of every number below the length of the array. -/
theorem exists_bucketAt {number : Nat} (h : number < t.buckets.size) :
    ∃ b, t.bucketAt number = .ok b :=
  ⟨_, (bucketAt_eq_ok_iff _ _ _).mpr (Array.getElem?_eq_getElem h)⟩

/-- Nothing stops an unchecked write to a bucket of the table. -/
theorem fault_write_off {w : Writer} (hw : w.bucket < t.buckets.size) (key : UInt64)
    (generation : UInt8) (r : Record) : (t.write .off w key generation r).2 = none := by
  rw [write_eq_none (Array.getElem?_eq_getElem hw) key (.inl rfl)]

/-- Nothing stops unchecked writes into the slots of a bucket of the table. -/
theorem fault_fillSlots_off {number : Nat} (h : number < t.buckets.size) (key : UInt16)
    (generation : UInt8) (r : Record) (list : List Slot) :
    (t.fillSlots .off number key generation r list).2 = none := by
  induction list generalizing t with
  | nil => rfl
  | cons slot rest ih =>
    obtain ⟨b, hb⟩ := exists_bucketAt h
    have hnone : Entry.argumentFault? .off generation r = none ∧ Entry.scoreFault? .off r = none :=
      Entry.faults_eq_none (.inl rfl)
    simp only [fillSlots, hb, Bucket.fault_trySave_eq_none hnone.1 hnone.2]
    exact ih (by rwa [Array.size_setIfInBounds])

/-- Nothing stops unchecked writes into every slot of a part of the table. -/
theorem fault_fill_off (key : UInt16) (generation : UInt8) (r : Record) {first count : Nat}
    (h : first + count ≤ t.buckets.size) : (t.fill .off key generation r first count).2 = none := by
  induction count generalizing first t with
  | zero => rfl
  | succ count ih =>
    have hfirst : first < t.buckets.size := by omega
    have hnone := fault_fillSlots_off hfirst key generation r slots
    have hframe := (keptByWrites_sameFrame .off).fillSlots first key generation r slots t
    unfold fill
    split
    · rename_i heq
      rw [heq] at hnone
      cases hnone
    · -- The first bucket is written, and the array is as long as before.
      rename_i heq
      rw [heq] at hframe
      obtain ⟨_, hsize, rfl⟩ := hframe
      exact ih (by simp only [hsize]; omega)

/-! ## Intact tables -/

/-- What holds of a table that was created with some parameters, at any time. -/
structure Intact (params : Replacement) (t : Table) : Prop extends t.Sound where
  /-- It has the parameters that it was created with. -/
  params : t.params = params
  /-- The low bits of the generation are zero. -/
  generation : t.generation.toNat % 8 = 0
  /-- The bytes of the buckets fit a word. -/
  bytes : t.sizeBytes ≤ maxBlock
  /-- What the buckets lie in holds all of them. -/
  held : t.sizeBytes ≤ t.reservedBytes

/-- What differs only in what its buckets hold is as intact. -/
theorem Intact.of_sameFrame (h : t.Intact params) (hf : t.SameFrame t') : t'.Intact params := by
  obtain ⟨buckets, hsize, rfl⟩ := hf
  refine ⟨⟨hsize.trans h.size, h.pos⟩, h.params, h.generation, h.bytes, ?_⟩
  have hheld := h.held
  unfold reservedBytes at hheld ⊢
  rwa [hsize]

/-- A new search keeps a table intact. -/
theorem Intact.newSearch (h : t.Intact params) : t.newSearch.Intact params :=
  ⟨⟨h.size, h.pos⟩, h.params, generation_newSearch h.generation, h.bytes, h.held⟩

/-- Any number of new searches keeps a table intact, and leaves its number of buckets. -/
theorem Intact.repeat_newSearch (h : t.Intact params) (times : Nat) :
    (times.repeat Table.newSearch t).Intact params ∧
      (times.repeat Table.newSearch t).bucketCount = t.bucketCount := by
  induction times with
  | zero => exact ⟨h, rfl⟩
  | succ times ih => exact ⟨ih.1.newSearch, ih.2⟩

/-- The fresh table in the block that was had for it is intact. -/
theorem intact_laidOut {memory : Memory} {count reserved : Nat} (hc : 0 < count)
    (h : memory.reserve count = .ok reserved) (params : Replacement) :
    (laidOut params count reserved).Intact params := by
  obtain ⟨hmax, hheld⟩ := Memory.bytes_le_of_reserve h
  exact ⟨sound_laidOut params hc reserved, rfl, rfl, hmax, hheld⟩

/-- The table of a single bucket is intact. -/
theorem intact_single (params : Replacement) : (single params).Intact params :=
  ⟨(blank_single params).toSound, rfl, rfl, show 1 * bucketBytes ≤ maxBlock by decide, Nat.le_refl _⟩

/-- A clear keeps a table intact, even if it is stopped. -/
theorem Intact.clearBy {α : Type} (h : t.Intact params) (observe : Array Bucket → α) (workers : Nat)
    (runs : List (Moment × Nat)) : (t.clearBy observe workers runs).table.Intact params := by
  have hrewound : Intact params { t with generation := 0 } :=
    ⟨⟨h.size, h.pos⟩, h.params, rfl, h.bytes, h.held⟩
  rw [table_clearBy]
  exact hrewound.of_sameFrame ⟨_, size_zeroStripes _ _, rfl⟩

/-- A resize leaves a table intact, whether it succeeds or fails. -/
theorem Intact.resize (h : t.Intact params) (memory : Memory) (crew : Crew) (bytes : UInt64) :
    (t.resize memory crew bytes).table.Intact params := by
  rw [resize_eq, h.params]
  split
  · exact intact_single params
  · rename_i hr
    exact intact_laidOut (bucketsFor_pos bytes) hr params

/-- A created table is intact. -/
theorem intact_of_create {memory : Memory} {crew : Crew} {bytes : UInt64} {c : Created}
    (h : create memory crew params bytes = .ok c) : c.table.Intact params := by
  obtain ⟨-, reserved, hr, heq⟩ := eq_laidOut_of_create h
  rw [heq]
  exact intact_laidOut (bucketsFor_pos bytes) hr params

/-- The bucket of a key is one of an intact table. -/
theorem Intact.indexOf_lt (h : t.Intact params) (key : UInt64) : t.indexOf key < t.bucketCount :=
  bucketIndex_lt key h.pos

/-- In an intact table the number of buckets fits a word, so the bucket of a key is the high word of
a product of two words. -/
theorem Intact.indexOf_eq (h : t.Intact params) (key : UInt64) :
    t.indexOf key = (mulHigh key (UInt64.ofNat t.bucketCount)).toNat := by
  have hbytes : t.bucketCount * 32 ≤ maxBlock := h.bytes
  have hmax : maxBlock < UInt64.size := by decide
  rw [← bucketIndex_toNat, UInt64.toNat_ofNat_of_lt' (by omega)]
  rfl

/-- The estimate of the occupancy of an intact table divides by the entries looked at, which are not
none. -/
theorem Intact.sample_ne_zero (h : t.Intact params) :
    min hashfullSample t.bucketCount * entryCount ≠ 0 := by
  have hpos := h.pos
  have hsample : 0 < hashfullSample := by decide
  have hcount : 0 < entryCount := by decide
  exact Nat.mul_ne_zero (by omega) (by omega)

/-- The occupancy of an intact table can be estimated under any limits on the age. -/
theorem Intact.exists_hashfull (h : t.Intact params) (maxAges : List (Option UInt8)) :
    ∃ estimates, maxAges.mapM t.hashfull = .ok estimates := by
  induction maxAges with
  | nil => exact ⟨[], rfl⟩
  | cons maxAge rest ih =>
    obtain ⟨estimates, hrest⟩ := ih
    have hfirst : ∃ estimate, t.hashfull maxAge = .ok estimate := by
      unfold hashfull
      simp only [if_neg h.sample_ne_zero]
      exact ⟨_, rfl⟩
    obtain ⟨estimate, hfirst⟩ := hfirst
    refine ⟨estimate :: estimates, ?_⟩
    rw [List.mapM_cons, hfirst, hrest]
    rfl

end Transposition.Table
