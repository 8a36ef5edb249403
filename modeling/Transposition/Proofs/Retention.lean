import Transposition.Proofs.Eviction
import Transposition.Table.Setup

/-!
# Which writes are lost

A record that is written through a fresh writer can be found afterwards, unless an unoccupied entry
has refused it (`Bucket.found_lookup_save_iff`). The rule for overwriting does not ask whether the
entry is occupied. So an unoccupied entry, whose fields are those of a record of depth byte zero
under the key zero in generation zero, can resist a write under that key: with a negative slack, a
record shallow enough is not stored. `Bucket.Loses` says when that happens, and
`FreshRun.found_after_write_iff` that nothing else is ever lost.
-/

namespace Transposition

/-- In a generation whose low bits are zero, a vacant entry is as old as the table. -/
theorem Entry.Vacant.age_eq {e : Entry} (h : e.Vacant) {generation : UInt8}
    (hg : generation.toNat % 8 = 0) : e.age generation = generation.toNat := by
  have hlt := generation.toNat_lt
  unfold Entry.age
  rw [Stamp.age_eq _ _ hg, h.stamp]
  simp only [UInt8.toNat_zero]
  omega

/-- A vacant entry refuses a write exactly if the write is under the key zero, in generation zero, not
exact, and not deep enough to make up for a negative slack. -/
theorem Entry.Vacant.not_yields_iff {e : Entry} (h : e.Vacant) (p : Replacement) (key : UInt16)
    {generation : UInt8} (hg : generation.toNat % 8 = 0) (r : Record) :
    ¬e.Yields p key generation r ↔
      key = 0 ∧ generation = 0 ∧ r.bound ≠ .exact ∧ claim r + p.depthSlack.toInt ≤ 0 := by
  have hbar : bar p e = -p.depthSlack.toInt := by
    unfold bar
    rw [h.depthByte]
    simp
  have hgen : generation.toNat = 0 ↔ generation = 0 := by
    rw [← UInt8.toNat_inj]
    rfl
  -- The four reasons to yield, each of them denied for an entry of zeros.
  unfold Yields
  rw [h.age_eq hg, h.key, hbar, ← hgen]
  constructor
  · intro hn
    refine ⟨?_, ?_, ?_, ?_⟩
    · by_contra hk
      exact hn (Or.inr (Or.inl hk))
    · by_contra hz
      exact hn (Or.inr (Or.inr (Or.inr hz)))
    · exact fun hb => hn (Or.inl hb)
    · by_contra hc
      exact hn (Or.inr (Or.inr (Or.inl (by omega))))
  · rintro ⟨hk, hz, hb, hc⟩ (hexact | hkey | hdeep | hage)
    · exact hb hexact
    · exact hkey hk
    · omega
    · exact hage hz

namespace Bucket

/-- When a write is lost: it is under the key zero, no occupied entry is under that key, there is an
unoccupied one, which looks as if it were, and that one refuses the write. -/
def Loses (p : Replacement) (generation : UInt8) (key : UInt16) (r : Record) (b : Bucket) : Prop :=
  key = 0 ∧ ¬b.Holds 0 ∧ (∃ i, (b.entry i).occupied = false) ∧ generation = 0 ∧
    r.bound ≠ .exact ∧ Entry.claim r + p.depthSlack.toInt ≤ 0

section Lookup

variable {p : Replacement} {generation : UInt8} {key : UInt16} {b : Bucket} {slot : Slot}

/-- A write is lost exactly if the slot that a look-up returns is unoccupied and refuses it. -/
theorem loses_iff (hb : b.Packed) (hg : generation.toNat % 8 = 0)
    (hl : (b.lookup p generation key).slot = slot) (r : Record) :
    b.Loses p generation key r ↔
      (b.entry slot).occupied = false ∧ ¬(b.entry slot).Yields p key generation r := by
  constructor
  · rintro ⟨hkey, hnone, ⟨j, hj⟩, hrest⟩
    have ho : (b.entry slot).occupied = false := by
      -- No occupied entry is under the key zero, and the vacant entry `j` is, so the search ends at
      -- an unoccupied slot.
      rcases b.lookup_cases p generation key with
        ⟨i, hik, -, hi, hl'⟩ | ⟨i, -, -, hi, hl'⟩ | ⟨hmiss, -⟩
      · exact absurd ⟨i, hi, hik.trans hkey⟩ hnone
      · rw [← hl, hl']
        exact hi
      · exact absurd ((hb.vacant j hj).key.trans hkey.symm) (hmiss j)
    exact ⟨ho, ((hb.vacant slot ho).not_yields_iff p key hg r).mpr ⟨hkey, hrest⟩⟩
  · rintro ⟨ho, hn⟩
    obtain ⟨hkey, hrest⟩ := ((hb.vacant slot ho).not_yields_iff p key hg r).mp hn
    refine ⟨hkey, fun hholds => ?_, ⟨slot, ho⟩, hrest⟩
    rw [← hkey] at hholds
    have hs := (hb.slot_of_holds hl hholds).1
    rw [ho] at hs
    cases hs

/-- After a write through a fresh writer, a look-up finds the key unless the write was lost. -/
theorem found_lookup_save_iff (hb : b.Packed) (hg : generation.toNat % 8 = 0)
    (hl : (b.lookup p generation key).slot = slot) (r : Record) (p' : Replacement)
    (generation' : UInt8) :
    ((b.save p key generation r slot).lookup p' generation' key).found = true ↔
      ¬b.Loses p generation key r := by
  have hf := hb.filledTo_lookup p generation key
  rw [hl] at hf
  -- The bucket stays packed, so the key is found exactly if it is held.
  rw [(hb.save hf).found_lookup_iff, loses_iff hb hg hl]
  have hoccupied : ((b.save p key generation r slot).entry slot).occupied = true ↔
      ¬((b.entry slot).occupied = false ∧ ¬(b.entry slot).Yields p key generation r) := by
    rw [entry_save_self, Entry.occupied_save_iff, not_and_or, not_not, Bool.not_eq_false, or_comm]
  rw [← hoccupied]
  constructor
  · rintro ⟨i, hi, hkey⟩
    by_cases his : i = slot
    · rw [his] at hi
      exact hi
    · -- Another occupied entry is under the key, so the look-up returned an occupied slot.
      rw [entry_save_of_ne p key generation r b his] at hi hkey
      exact occupied_save (hb.slot_of_holds hl ⟨i, hi, hkey⟩).1
  · intro ho
    refine ⟨slot, ho, ?_⟩
    rw [entry_save_self, Entry.key_save]

end Lookup

end Bucket

/-! ## Runs with fresh writers -/

variable {checks : Checks} {start t : Table}

/-- In every state of a run with fresh writers from a blank table, a probe of a key and a write of any
record through its writer, in the current generation, let the next probe find the key, except if the
key's bucket loses the write. The write returns if its record is admissible, and without checks it
always does. -/
theorem FreshRun.found_after_write_iff (h₀ : start.Blank) (hr : FreshRun checks start t)
    (key : UInt64) (r : Record) :
    ∃ p b, t.probe key = .ok p ∧ t.bucketOf key = .ok b ∧
      (checks = .off ∨ Entry.Admissible r →
        ∃ t', t.write checks p.writer key t.generation r = (t', none)) ∧
      ∀ t', t.write checks p.writer key t.generation r = (t', none) →
        ∃ q, t'.probe key = .ok q ∧
          (q.found = true ↔ ¬b.Loses t.params t.generation (entryKey key) r) := by
  obtain ⟨h, hrun⟩ := hr.exists_run
  have hsound := hrun.sound h₀.toSound
  have hgen := hrun.generation h₀
  obtain ⟨p, hp⟩ := hsound.exists_probe key
  obtain ⟨b, hb, hbucket, hl⟩ := (Table.probe_eq_ok_iff _ _ _).mp hp
  have hpacked := hrun.packed h₀ hb
  have hslot := congrArg Lookup.slot hl
  have hb' : t.buckets[p.writer.bucket]? = some b := by
    rw [hbucket]
    exact hb
  refine ⟨p, b, hp, (Table.bucketAt_eq_ok_iff _ _ _).mpr hb, ?_, ?_⟩
  · intro hc
    exact ⟨_, Table.write_eq_none hb' key (hc.imp_right fun hr => ⟨hgen, hr⟩)⟩
  · intro t' hw
    obtain rfl := Table.eq_of_write hb' hw
    -- The next probe looks the key up in the bucket that the write has left.
    have hsaved := Table.getElem?_setBucket_self hb
      (b.save t.params (entryKey key) t.generation r p.writer.slot)
    rw [hbucket]
    refine ⟨⟨_, _, ⟨t.indexOf key, _⟩⟩,
      (Table.probe_eq_ok_iff _ _ _).mpr ⟨_, hsaved, rfl, rfl⟩, ?_⟩
    exact Bucket.found_lookup_save_iff hpacked hgen hslot r _ _

/-- With the slack `-4`, an empty entry lets a record of depth two under the key zero in, and it is
found. -/
theorem found_after_write_iff_deep_enough :
    (Table.single ⟨-4, 5, 2⟩).Blank ∧
      FreshRun .on (Table.single ⟨-4, 5, 2⟩) (Table.single ⟨-4, 5, 2⟩) ∧
      ∃ p t' q, (Table.single ⟨-4, 5, 2⟩).probe 0 = .ok p ∧
        (Table.single ⟨-4, 5, 2⟩).write .on p.writer 0 0 (.failedHigh Move.none 2) = (t', none) ∧
        t'.probe 0 = .ok q ∧ q.found = true := by
  have h₀ := Table.blank_single ⟨-4, 5, 2⟩
  have hadmissible : Entry.Admissible (.failedHigh Move.none 2) := by
    refine ⟨?_, ?_, ?_⟩ <;> decide
  obtain ⟨p, b, hp, -, hreturns, hfound⟩ :=
    FreshRun.found_after_write_iff h₀ (.start : FreshRun .on _ _) 0 (.failedHigh Move.none 2)
  obtain ⟨t', hw⟩ := hreturns (Or.inr hadmissible)
  obtain ⟨q, hq, hiff⟩ := hfound t' hw
  refine ⟨h₀, .start, p, t', q, hp, hw, hq, hiff.mpr ?_⟩
  rintro ⟨-, -, -, -, -, hc⟩
  exact absurd hc (by decide)

/-- A write to a created table that is lost: with the slack `-4`, an empty entry resists a record of
depth zero under the key zero in generation zero, and the next probe misses. -/
theorem exists_lost_write :
    ¬∀ (memory : Memory) (crew : Crew) (params : Replacement) (bytes : UInt64) (start t t' : Table)
        (notices : List Notice) (checks : Checks) (key : UInt64) (r : Record) (p q : Probe),
      Table.create memory crew params bytes = .ok ⟨start, notices, none⟩ → r.depth.Storable →
        FreshRun checks start t → t.probe key = .ok p →
        t.write checks p.writer key t.generation r = (t', none) → t'.probe key = .ok q →
        q.found = true := by
  intro h
  have hs : Table.create ⟨fun _ => true⟩ .single ⟨-4, 5, 2⟩ 32 =
      .ok ⟨⟨.block 2097152, #[Bucket.empty], 1, 0, ⟨-4, 5, 2⟩⟩, _, none⟩ := rfl
  have hp : Table.probe ⟨.block 2097152, #[Bucket.empty], 1, 0, ⟨-4, 5, 2⟩⟩ 0 =
      .ok (.miss 0 0) := rfl
  -- The slot keeps all its zeros, so the table is as it was.
  have hw : Table.write .on ⟨0, 0⟩ 0 0 (.failedHigh Move.none 0)
      ⟨.block 2097152, #[Bucket.empty], 1, 0, ⟨-4, 5, 2⟩⟩ = (_, none) := rfl
  have hfound := h _ _ _ _ _ _ _ _ .on 0 (.failedHigh Move.none 0) _ _ hs (by decide) .start hp hw
    hp
  cases hfound

end Transposition
