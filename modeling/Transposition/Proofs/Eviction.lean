import Transposition.Proofs.Packing

/-!
# A write evicts at most one record

With fresh writers no bucket ever holds two records under one key (`Bucket.Distinct`). The reason is
that a look-up never returns a slot beside an occupied one under the same key
(`Bucket.key_ne_of_ne_lookup`): it either returns that slot, or there is none. It follows that a
write replaces the record under its own key if there is one, and else takes at most one other away.
-/

namespace Transposition

namespace Bucket

/-- No two occupied entries are under one key. -/
def Distinct (b : Bucket) : Prop :=
  ∀ i j, (b.entry i).occupied = true → (b.entry j).occupied = true →
    (b.entry i).key = (b.entry j).key → i = j

/-- The empty bucket holds no record, and so no two under one key. -/
theorem distinct_empty : empty.Distinct := by
  intro i j hi
  rw [entry_empty] at hi
  exact absurd hi (by decide)

section Lookup

variable {p : Replacement} {generation : UInt8} {key : UInt16} {b : Bucket} {slot : Slot}

/-- No occupied entry beside the slot that a look-up returns is under the key. -/
theorem key_ne_of_ne_lookup (hb : b.Packed) (hd : b.Distinct)
    (hl : (b.lookup p generation key).slot = slot) {i : Slot} (hne : i ≠ slot)
    (hi : (b.entry i).occupied = true) : (b.entry i).key ≠ key := by
  intro hkey
  obtain ⟨hs, hskey⟩ := hb.slot_of_holds hl ⟨i, hi, hkey⟩
  exact hne (hd i slot hi hs (by rw [hkey, hskey]))

variable {p' : Replacement} {generation' : UInt8} {r : Record}

/-- A write into the slot that a look-up of its key returns puts no second record under a key. -/
theorem Distinct.save (hd : b.Distinct) (hb : b.Packed)
    (hl : (b.lookup p generation key).slot = slot) :
    (b.save p' key generation' r slot).Distinct := by
  intro i j hi hj hij
  -- Only the written slot has a new key, and no record beside it is under that key.
  by_cases his : i = slot
  · by_cases hjs : j = slot
    · rw [his, hjs]
    · rw [entry_save_of_ne p' key generation' r b hjs] at hj hij
      rw [his, entry_save_self, Entry.key_save] at hij
      exact absurd hij.symm (key_ne_of_ne_lookup hb hd hl hjs hj)
  · rw [entry_save_of_ne p' key generation' r b his] at hi hij
    by_cases hjs : j = slot
    · rw [hjs, entry_save_self, Entry.key_save] at hij
      exact absurd hij (key_ne_of_ne_lookup hb hd hl his hi)
    · rw [entry_save_of_ne p' key generation' r b hjs] at hj hij
      exact hd i j hi hj hij

/-- A record that a write takes away was in the written slot. -/
theorem key_of_lost {x : UInt16} (hx : b.Holds x)
    (hlost : ¬(b.save p' key generation' r slot).Holds x) : (b.entry slot).key = x := by
  obtain ⟨i, hi, hkey⟩ := hx
  by_cases his : i = slot
  · rw [← his]
    exact hkey
  · refine absurd ⟨i, ?_, ?_⟩ hlost
    · exact occupied_save hi
    · rw [entry_save_of_ne p' key generation' r b his]
      exact hkey

/-- A write under a key of the bucket takes no record away, provided that it is aimed at the slot that
a look-up returns. -/
theorem Holds.save (hb : b.Packed) (hl : (b.lookup p generation key).slot = slot)
    (hk : b.Holds key) {x : UInt16} (hx : b.Holds x) :
    (b.save p' key generation' r slot).Holds x := by
  by_contra hlost
  obtain ⟨hs, hskey⟩ := hb.slot_of_holds hl hk
  -- What the write takes away is under its own key, and so is what it leaves.
  have hxkey : key = x := by rw [← hskey, key_of_lost hx hlost]
  refine hlost ⟨slot, occupied_save hs, ?_⟩
  rw [entry_save_self, Entry.key_save, hxkey]

end Lookup

end Bucket

/-! ## Runs with fresh writers -/

variable {checks : Checks} {start t : Table}

/-- In a run with fresh writers from a blank table, no bucket holds two records under one key. -/
theorem FreshRun.distinct (h₀ : start.Blank) (hr : FreshRun checks start t) {n : Nat} {b : Bucket}
    (hb : t.buckets[n]? = some b) : b.Distinct := by
  induction hr generalizing n b with
  | start =>
    rw [h₀.empty n b hb]
    exact Bucket.distinct_empty
  | search _ ih => exact ih hb
  | @write t t' key p generation r hrun hp hw ih =>
    obtain ⟨h, hrun⟩ := hrun.exists_run
    obtain ⟨b₀, hb₀, hbucket, hl⟩ := (Table.probe_eq_ok_iff _ _ _).mp hp
    rw [← hbucket] at hb₀
    obtain rfl := Table.eq_of_write hb₀ hw
    rcases Table.getElem?_setBucket_cases hb₀ hb with ⟨-, rfl⟩ | ⟨-, hb⟩
    · exact (ih hb₀).save (hrun.packed h₀ hb₀) (congrArg Lookup.slot hl)
    · exact ih hb

/-- In every state of a run with fresh writers from a blank table, no bucket holds two records under
one key; and a further write of that kind changes only the slot that it is aimed at and the flag of
that slot. If the bucket holds the key, this is the slot of its record, and no key is lost; if not,
at most one key is. -/
theorem FreshRun.distinct_and_single_eviction (h₀ : start.Blank) (hr : FreshRun checks start t) :
    (∀ (n : Nat) (b : Bucket), t.buckets[n]? = some b → b.Distinct) ∧
      ∀ (key : UInt64) (p : Probe) (generation : UInt8) (r : Record) (t' : Table),
        t.probe key = .ok p → t.write checks p.writer key generation r = (t', none) →
        ∃ b b', t.bucketOf key = .ok b ∧ t' = t.setBucket (t.indexOf key) b' ∧
          t'.bucketOf key = .ok b' ∧
          (∀ i, i ≠ p.writer.slot → b'.entry i = b.entry i) ∧
          (∀ i, i ≠ p.writer.slot.val → b'.flags.get i = b.flags.get i) ∧
          (∀ i, (b.entry i).occupied = true → (b.entry i).key = entryKey key →
            p.writer.slot = i) ∧
          (b.Holds (entryKey key) → ∀ x, b.Holds x → b'.Holds x) ∧
          ∀ x y, b.Holds x → ¬b'.Holds x → b.Holds y → ¬b'.Holds y → x = y := by
  refine ⟨fun n b hb => hr.distinct h₀ hb, fun key p generation r t' hp hw => ?_⟩
  obtain ⟨h, hrun⟩ := hr.exists_run
  obtain ⟨b, hb, hbucket, hl⟩ := (Table.probe_eq_ok_iff _ _ _).mp hp
  have hpacked := hrun.packed h₀ hb
  have hslot := congrArg Lookup.slot hl
  rw [← hbucket] at hb
  obtain rfl := Table.eq_of_write hb hw
  rw [hbucket] at hb ⊢
  refine ⟨b, _, (Table.bucketAt_eq_ok_iff _ _ _).mpr hb, rfl,
    (Table.bucketAt_eq_ok_iff _ _ _).mpr (Table.getElem?_setBucket_self hb _), ?_, ?_, ?_, ?_, ?_⟩
  · exact fun i hi => Bucket.entry_save_of_ne _ _ _ _ _ hi
  · exact fun i hi => Bucket.flag_save_of_ne _ _ _ _ _ hi
  · intro i hi hkey
    by_contra hne
    exact Bucket.key_ne_of_ne_lookup hpacked (hr.distinct h₀ hb) hslot (Ne.symm hne) hi hkey
  · exact fun hk x hx => hk.save hpacked hslot hx
  · intro x y hx hlostx hy hlosty
    rw [← Bucket.key_of_lost hx hlostx, ← Bucket.key_of_lost hy hlosty]

/-- A bucket that holds the key 5 and is written under the key 9: the slots beside the written one
stay, and no two keys are lost. -/
theorem distinct_and_single_eviction_of_absent :
    ∃ (t t' : Table) (p : Probe), (Table.single .default).Blank ∧
      FreshRun .on (Table.single .default) t ∧ t.probe 9 = .ok p ∧
      t.write .on p.writer 9 0 (.failedHigh Move.none 1) = (t', none) ∧
      ∃ b b', t.bucketOf 9 = .ok b ∧ t'.bucketOf 9 = .ok b' ∧
        (∀ i, i ≠ p.writer.slot → b'.entry i = b.entry i) ∧
        ∀ x y, b.Holds x → ¬b'.Holds x → b.Holds y → ¬b'.Holds y → x = y := by
  have h₀ := Table.blank_single .default
  have hp₅ : (Table.single .default).probe 5 = .ok (.miss 0 0) := rfl
  have hw₅ : (Table.single .default).write .on ⟨0, 0⟩ 5 0 (.failedHigh Move.none 3) = (_, none) :=
    rfl
  obtain ⟨t, t', hr, hp, hw⟩ : ∃ t t', FreshRun .on (Table.single .default) t ∧
      t.probe 9 = .ok (.miss 0 1) ∧
      t.write .on ⟨0, 1⟩ 9 0 (.failedHigh Move.none 1) = (t', none) :=
    ⟨_, _, .write .start hp₅ hw₅, rfl, rfl⟩
  obtain ⟨b, b', hb, -, hb', hentries, -, -, -, hlost⟩ :=
    (hr.distinct_and_single_eviction h₀).2 9 _ 0 _ t' hp hw
  exact ⟨t, t', _, h₀, hr, hp, hw, b, b', hb, hb', hentries, hlost⟩

end Transposition
