import Mathlib.Data.Prod.Lex
import Mathlib.Order.Fin.Basic
import Transposition.Proofs.Access

/-!
# Which entry gives way

A key that no slot of its bucket is under goes into the slot that gives way, and this is the first in
an order of the slots (`Bucket.rank`): that of their worth, and among those worth the same that of
their numbers. The worth of an entry hangs on its depth and on its age, and its age on no more than
the distance of the generation bits of its stamp from the current ones, around a circle of 32
(`Stamp.age_eq_emod`): that the whole byte is subtracted, with the bits of the node kind and the
bound, makes no difference.

So nothing else in a bucket has a say in what it loses (`Bucket.victim_congr`).
-/

namespace Transposition

/-- The age is eight times the distance of the generation bits on their circle, whatever the low bits
of the stamp are. -/
theorem Stamp.age_eq_emod (s : Stamp) {generation : UInt8} (hg : generation.toNat % 8 = 0) :
    (s.age generation : Int) =
      8 * (((generation.toNat / 8 : Nat) - (s.byte.toNat / 8 : Nat) : Int) % 32) := by
  have hbyte := s.byte.toNat_lt
  rw [age_eq s generation hg]
  omega

namespace Bucket

/-- The place of a slot in the order in which the slots give way. -/
def rank (p : Replacement) (generation : UInt8) (b : Bucket) (i : Slot) : Int ×ₗ Slot :=
  toLex (worth p generation (b.entry i), i)

section Rank

variable {p p' : Replacement} {generation generation' : UInt8} {b b' : Bucket}

/-- The slot that gives way is the first in the order. -/
theorem rank_victim_lt {i : Slot} (hi : i ≠ b.victim p generation) :
    b.rank p generation (b.victim p generation) < b.rank p generation i := by
  unfold rank
  rw [Prod.Lex.toLex_lt_toLex]
  rcases lt_or_gt_of_ne hi with hlt | hgt
  · exact Or.inl (b.worth_victim_lt p generation hlt)
  · rcases (b.worth_victim_le p generation i).lt_or_eq with hworth | hworth
    · exact Or.inl hworth
    · exact Or.inr ⟨hworth, hgt⟩

/-- Slots that are ranked alike give way alike. -/
theorem victim_congr (h : ∀ i, b.rank p generation i = b'.rank p' generation' i) :
    b.victim p generation = b'.victim p' generation' := by
  by_contra hne
  -- Each of the two would come before the other.
  have hfirst := rank_victim_lt (Ne.symm hne)
  have hsecond := rank_victim_lt hne
  rw [h, h] at hfirst
  exact lt_asymm hfirst hsecond

/-- The rank in terms of the bits of the generations. -/
theorem rank_eq (hg : generation.toNat % 8 = 0) (i : Slot) :
    b.rank p generation i =
      toLex ((b.entry i).depthByte.toNat - p.ageWeight.toInt *
        (8 * (((generation.toNat / 8 : Nat) - ((b.entry i).stamp.byte.toNat / 8 : Nat) : Int) %
          32)), i) := by
  unfold rank worth Entry.age
  rw [Stamp.age_eq_emod _ hg]

end Rank

end Bucket

namespace Table

/-- The writer for a key that no slot of its bucket is under is to the slot that gives way. -/
theorem probe_of_absent {t : Table} {key : UInt64} {b : Bucket}
    (hb : t.buckets[t.indexOf key]? = some b) (habsent : ∀ i, (b.entry i).key ≠ entryKey key) :
    t.probe key =
      .ok ⟨false, Record.absent, ⟨t.indexOf key, b.victim t.params t.generation⟩⟩ := by
  refine (probe_eq_ok_iff _ _ _).mpr ⟨b, hb, rfl, ?_⟩
  rcases b.lookup_cases t.params t.generation (entryKey key) with
    ⟨i, hkey, -⟩ | ⟨i, hkey, -⟩ | ⟨-, hl⟩
  · exact absurd hkey (habsent i)
  · exact absurd hkey (habsent i)
  · exact hl

/-- Whatever the buckets of a table hold, in a generation whose low bits are zero and for any weight
of age, a probe of a key that no slot of its bucket is under finds nothing, and its writer is to the
slot that comes first in this order: by the byte of the depth less the weight times eight times the
distance, modulo 32, of the five generation bits of the stamp from the current ones, and then by
number.

Therefore the same slot gives way in every other bucket, of this or of another table of the same
generation and weight, that agrees with this one on the bytes of the depths and on the generation bits
of the stamps, and has no slot under the key that is probed there: whatever else the two hold, and
whatever their other parameters are. -/
theorem least_slot_gives_way {t : Table} {key : UInt64} {b : Bucket}
    (hg : t.generation.toNat % 8 = 0) (hb : t.buckets[t.indexOf key]? = some b)
    (habsent : ∀ i, (b.entry i).key ≠ entryKey key) :
    let rank (i : Slot) : Int ×ₗ Slot :=
      toLex ((b.entry i).depthByte.toNat - t.params.ageWeight.toInt *
        (8 * (((t.generation.toNat / 8 : Nat) - ((b.entry i).stamp.byte.toNat / 8 : Nat) : Int) %
          32)), i)
    ∃ slot, t.probe key = .ok ⟨false, Record.absent, ⟨t.indexOf key, slot⟩⟩ ∧
      (∀ i ≠ slot, rank slot < rank i) ∧
      ∀ (t' : Table) (key' : UInt64) (b' : Bucket), t'.generation = t.generation →
        t'.params.ageWeight = t.params.ageWeight → t'.buckets[t'.indexOf key']? = some b' →
        (∀ i, (b'.entry i).key ≠ entryKey key') →
        (∀ i, (b'.entry i).depthByte = (b.entry i).depthByte ∧
          (b'.entry i).stamp.byte.toNat / 8 = (b.entry i).stamp.byte.toNat / 8) →
        t'.probe key' = .ok ⟨false, Record.absent, ⟨t'.indexOf key', slot⟩⟩ := by
  intro rank
  have hrank (i : Slot) : b.rank t.params t.generation i = rank i := Bucket.rank_eq hg i
  refine ⟨b.victim t.params t.generation, probe_of_absent hb habsent, fun i hi => ?_, ?_⟩
  · rw [← hrank, ← hrank]
    exact Bucket.rank_victim_lt hi
  · intro t' key' b' hgeneration hweight hb' habsent' hagree
    have hvictim : b'.victim t'.params t'.generation = b.victim t.params t.generation := by
      apply Bucket.victim_congr
      intro i
      -- The depth, the generations and the weight are all that a rank is made of.
      rw [Bucket.rank_eq hg, Bucket.rank_eq (by rw [hgeneration]; exact hg), hgeneration, hweight,
        (hagree i).1, (hagree i).2]
    rw [probe_of_absent hb' habsent', hvictim]

/-- Two buckets of three records. The first record is of the current generation; the other two are
deeper, but of the last generation before the count came round, and worth the same as each other. So
the first of these gives way, and it does in both buckets, though their keys, moves, bounds and node
kinds are others. -/
theorem least_slot_gives_way_before_round :
    let r (move : Move) (depth : Depth) (bound : Bound) (pv : Bool) : Record :=
      ⟨move, ⟨1⟩, ⟨2⟩, depth, bound, pv, pv⟩
    let b := ((Bucket.empty.save .default 1 16 (r ⟨7⟩ 3 .upper false) 0).save .default 2 248
      (r ⟨8⟩ 10 .lower false) 1).save .default 3 248 (r ⟨9⟩ 10 .exact true) 2
    let b' := ((Bucket.empty.save .default 4 16 (r ⟨5⟩ 3 .exact true) 0).save .default 5 248
      (r Move.none 10 .upper true) 1).save .default 6 248 (r ⟨4⟩ 10 .lower false) 2
    let t : Table := ⟨.single, #[b], 1, 16, .default⟩
    let t' : Table := ⟨.single, #[b'], 1, 16, .default⟩
    t.generation.toNat % 8 = 0 ∧ (∀ i, (b.entry i).key ≠ entryKey 7) ∧
      (∀ i, (b'.entry i).key ≠ entryKey 8) ∧ b.read 1 ≠ b'.read 1 ∧
      t.probe 7 = .ok ⟨false, Record.absent, ⟨0, 1⟩⟩ ∧
      t'.probe 8 = .ok ⟨false, Record.absent, ⟨0, 1⟩⟩ := by
  intro r b b' t t'
  have hg : t.generation.toNat % 8 = 0 := by decide
  have hindex : t.indexOf 7 = 0 := by decide
  have hindex' : t'.indexOf 8 = 0 := by decide
  have hb : t.buckets[t.indexOf 7]? = some b := by
    rw [hindex]
    rfl
  have hb' : t'.buckets[t'.indexOf 8]? = some b' := by
    rw [hindex']
    rfl
  have habsent : ∀ i, (b.entry i).key ≠ entryKey 7 := by decide
  have habsent' : ∀ i, (b'.entry i).key ≠ entryKey 8 := by decide
  obtain ⟨slot, hslot, -, hothers⟩ := least_slot_gives_way hg hb habsent
  have hslot' := hothers t' 8 b' rfl rfl hb' habsent' (by decide)
  -- The slot is that of the first of the two records that are worth least.
  obtain rfl : slot = 1 := by
    have hvictim : b.victim .default 16 = 1 := by decide
    have hprobe := probe_of_absent hb habsent
    rw [hslot, Except.ok.injEq] at hprobe
    exact (congrArg (fun p => p.writer.slot) hprobe).trans hvictim
  rw [hindex] at hslot
  rw [hindex'] at hslot'
  exact ⟨hg, habsent, habsent', by decide, hslot, hslot'⟩

end Table

end Transposition
