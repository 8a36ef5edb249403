import Transposition.Proofs.Run

/-!
# Occupied entries come first

In every state of a run, the occupied entries of a bucket stand before the others, and the others are
as empty as they were at the start but for their moves (`Bucket.Packed`). What carries this through
writers that are kept for any time is a property of the slot that a writer points at: all slots
before it are occupied (`Bucket.FilledTo`). A look-up only returns such a slot
(`Bucket.Packed.filledTo_lookup`), since equally empty slots are worth the same and the first of them
gives way; and as no write empties an entry (`Bucket.occupied_save`), it stays such a slot. The two
together are the invariant (`packed_invariant`).

A packed bucket hides nothing from a search. A slot that is not occupied can match the key zero, but
then no occupied slot with that key comes after it (`Bucket.Packed.found_lookup_iff`).
-/

namespace Transposition

namespace Bucket

/-- The occupied entries come first, and nothing is set in the rest of the bucket but moves. -/
structure Packed (b : Bucket) : Prop where
  /-- Before an occupied entry every entry is occupied. -/
  occupied_of_le : ∀ i j : Slot, i ≤ j → (b.entry j).occupied = true → (b.entry i).occupied = true
  /-- An unoccupied entry has never been overwritten. -/
  vacant : ∀ i : Slot, (b.entry i).occupied = false → (b.entry i).Vacant
  /-- The flag of an unoccupied entry is clear. -/
  flag : ∀ i : Slot, (b.entry i).occupied = false → b.flags.get i = false
  /-- The spare bits of the flag word are clear. -/
  spare : ∀ i : Nat, entryCount ≤ i → b.flags.get i = false

/-- Every entry before a slot is occupied. -/
def FilledTo (b : Bucket) (slot : Slot) : Prop := ∀ i < slot, (b.entry i).occupied = true

/-- An occupied entry is under the key. -/
def Holds (b : Bucket) (key : UInt16) : Prop :=
  ∃ i, (b.entry i).occupied = true ∧ (b.entry i).key = key

/-- The empty bucket is packed. -/
theorem packed_empty : empty.Packed := by
  refine ⟨fun i j _ h => ?_, fun i _ => ?_, fun i _ => ?_, fun i _ => ?_⟩
  · rw [entry_empty] at h
    exact absurd h (by decide)
  · rw [entry_empty]
    exact Entry.vacant_empty
  · exact Nat.zero_testBit i
  · exact Nat.zero_testBit i

/-! ## Writes -/

section Save

variable {p : Replacement} {key : UInt16} {generation : UInt8} {r : Record} {slot : Slot}
  {b : Bucket}

/-- No write empties an entry, be it of its own slot or of another. -/
theorem occupied_save {i : Slot} (h : (b.entry i).occupied = true) :
    ((b.save p key generation r slot).entry i).occupied = true := by
  by_cases hi : i = slot
  · subst hi
    rw [entry_save_self, Entry.occupied_save_iff]
    exact Or.inr h
  · rw [entry_save_of_ne p key generation r b hi]
    exact h

/-- An entry that is unoccupied after a write was so before, and has refused it if it was aimed at. -/
theorem occupied_of_save {i : Slot}
    (h : ((b.save p key generation r slot).entry i).occupied = false) :
    (b.entry i).occupied = false ∧ (i = slot → ¬(b.entry i).Yields p key generation r) := by
  constructor
  · by_contra ho
    rw [Bool.not_eq_false] at ho
    rw [occupied_save ho] at h
    cases h
  · rintro rfl hy
    rw [entry_save_self, (Entry.occupied_save_iff _ _ _ _ _).mpr (Or.inl hy)] at h
    cases h

/-- What a writer points at stays such a slot. -/
theorem FilledTo.save {i : Slot} (h : b.FilledTo i) :
    (b.save p key generation r slot).FilledTo i :=
  fun j hj => occupied_save (h j hj)

/-- A write keeps a bucket packed if all slots before its own are occupied. -/
theorem Packed.save (h : b.Packed) (hf : b.FilledTo slot) :
    (b.save p key generation r slot).Packed where
  occupied_of_le := by
    intro i j hij hj
    by_cases hjs : j = slot
    · -- The slot may have become occupied just now, but those before it were so already.
      subst hjs
      rcases Nat.lt_or_eq_of_le hij with hlt | heq
      · exact occupied_save (hf i hlt)
      · rw [Fin.ext heq]
        exact hj
    · rw [entry_save_of_ne p key generation r b hjs] at hj
      exact occupied_save (h.occupied_of_le i j hij hj)
  vacant := by
    intro i hi
    obtain ⟨ho, hn⟩ := occupied_of_save hi
    by_cases his : i = slot
    · subst his
      rw [entry_save_self]
      exact (h.vacant i ho).save (hn rfl)
    · rw [entry_save_of_ne p key generation r b his]
      exact h.vacant i ho
  flag := by
    intro i hi
    obtain ⟨ho, hn⟩ := occupied_of_save hi
    by_cases his : i = slot
    · subst his
      rw [flags_save_of_not_yields (hn rfl)]
      exact h.flag i ho
    · rw [flag_save_of_ne p key generation r b fun heq => his (Fin.ext heq)]
      exact h.flag i ho
  spare := by
    intro i hi
    have hne : i ≠ slot.val := fun heq => absurd slot.isLt (by rw [← heq]; exact Nat.not_lt.mpr hi)
    rw [flag_save_of_ne p key generation r b hne]
    exact h.spare i hi

end Save

/-! ## Look-ups -/

section Lookup

variable {b : Bucket}

/-- Two vacant entries are worth the same. -/
theorem worth_eq_of_vacant (p : Replacement) (generation : UInt8) {e e' : Entry} (h : e.Vacant)
    (h' : e'.Vacant) : worth p generation e = worth p generation e' := by
  unfold worth Entry.age Stamp.age
  rw [h.depthByte, h'.depthByte, h.stamp, h'.stamp]

/-- The slot that a look-up returns has only occupied entries before it. -/
theorem Packed.filledTo_lookup (h : b.Packed) (p : Replacement) (generation : UInt8)
    (key : UInt16) : b.FilledTo (b.lookup p generation key).slot := by
  intro j hj
  by_contra ho
  rw [Bool.not_eq_true] at ho
  rcases b.lookup_cases p generation key with
    ⟨i, -, -, hi, hl⟩ | ⟨i, hkey, hfirst, hi, hl⟩ | ⟨-, hl⟩
  · -- The look-up has found an occupied slot, and these come first.
    rw [hl] at hj
    rw [h.occupied_of_le j i (Nat.le_of_lt hj) hi] at ho
    cases ho
  · -- Both slots are unoccupied, so both are under the key zero, and the first would match.
    rw [hl] at hj
    apply hfirst j hj
    rw [(h.vacant j ho).key, ← hkey, (h.vacant i hi).key]
  · -- The slot that gives way would be as empty as the one before it, and so worth the same.
    rw [hl] at hj
    have hv : (b.entry (b.victim p generation)).occupied = false := by
      by_contra hv
      rw [Bool.not_eq_false] at hv
      rw [h.occupied_of_le j _ (Nat.le_of_lt hj) hv] at ho
      cases ho
    have hlt := b.worth_victim_lt p generation hj
    rw [worth_eq_of_vacant p generation (h.vacant _ hv) (h.vacant j ho)] at hlt
    exact Int.lt_irrefl _ hlt

/-- In a packed bucket a look-up finds a record exactly if an occupied entry is under the key. -/
theorem Packed.found_lookup_iff (h : b.Packed) (p : Replacement) (generation : UInt8)
    (key : UInt16) :
    (b.lookup p generation key).found = true ↔ b.Holds key := by
  rcases b.lookup_cases p generation key with
    ⟨i, hkey, -, hi, hl⟩ | ⟨i, hkey, hfirst, hi, hl⟩ | ⟨hnone, hl⟩
  · rw [hl]
    exact ⟨fun _ => ⟨i, hi, hkey⟩, fun _ => rfl⟩
  · rw [hl]
    refine ⟨fun hfalse => absurd hfalse Bool.false_ne_true, ?_⟩
    rintro ⟨j, hj, hjkey⟩
    -- An occupied entry under the key would stand before the unoccupied one, and match first.
    have hlt : j < i := by
      by_contra hge
      rw [h.occupied_of_le i j (Nat.le_of_not_lt hge) hj] at hi
      cases hi
    exact absurd hjkey (hfirst j hlt)
  · rw [hl]
    refine ⟨fun hfalse => absurd hfalse Bool.false_ne_true, ?_⟩
    rintro ⟨i, -, hi⟩
    exact absurd hi (hnone i)

/-- If a packed bucket holds the key, a look-up returns the slot of a record under it. -/
theorem Packed.slot_of_holds {p : Replacement} {generation : UInt8} {key : UInt16} {slot : Slot}
    (h : b.Packed) (hl : (b.lookup p generation key).slot = slot) (hk : b.Holds key) :
    (b.entry slot).occupied = true ∧ (b.entry slot).key = key := by
  obtain ⟨ho, hkey, -⟩ := of_found_lookup ((h.found_lookup_iff p generation key).mpr hk)
  rw [hl] at ho hkey
  exact ⟨ho, hkey⟩

end Lookup

end Bucket

/-! ## Runs -/

variable {checks : Checks} {start t : Table} {h : History}

/-- The writers into a bucket that a history has handed out point at slots with only occupied entries
before them. -/
def Bucket.WritersFilled (h : History) (number : Nat) (b : Bucket) : Prop :=
  ∀ (key : UInt64) (p : Probe), .probed key p ∈ h → p.writer.bucket = number →
    b.FilledTo p.writer.slot

/-- That a bucket is packed, and its writers point where a packed bucket can be written, holds of every
bucket of a run. -/
theorem packed_invariant (params : Replacement) :
    Invariant params fun h number b => b.Packed ∧ b.WritersFilled h number where
  empty _ := ⟨Bucket.packed_empty, fun _ _ hp => absurd hp List.not_mem_nil⟩
  elsewhere := by
    intro h n b event hb hne
    refine ⟨hb.1, fun key p hp hn => ?_⟩
    rcases List.mem_cons.mp hp with rfl | hp
    · exact absurd (congrArg some hn) hne
    · exact hb.2 key p hp hn
  probe := by
    intro h b generation key p hb answer
    refine ⟨hb.1, fun key' p' hp hn => ?_⟩
    rcases List.mem_cons.mp hp with heq | hp
    · -- The new writer points where the look-up has ended.
      obtain ⟨-, rfl⟩ := Event.probed.inj heq
      have hf := hb.1.filledTo_lookup params generation (entryKey key)
      rw [answer] at hf
      exact hf
    · exact hb.2 key' p' hp hn
  write := by
    intro h b w p hb held through _
    have hslot : b.FilledTo w.writer.slot := by
      rw [through] at hb ⊢
      exact hb.2 _ _ held rfl
    refine ⟨hb.1.save hslot, fun key p' hp hn => ?_⟩
    have hp' : Event.probed key p' ∈ h := by simpa using hp
    exact (hb.2 key p' hp' hn).save

/-- In a run from a blank table every bucket is packed. -/
theorem Run.packed (h₀ : start.Blank) (hr : Run checks start t h) {n : Nat} {b : Bucket}
    (hb : t.buckets[n]? = some b) : b.Packed :=
  (hr.holds (packed_invariant start.params) h₀ hb).1

/-- In every state of a run from a blank table, every bucket is packed; and a probe, which is always
answered, finds a record exactly if an occupied entry of the key's bucket is under the key. -/
theorem Run.packed_and_found_iff (h₀ : start.Blank) (hr : Run checks start t h) :
    (∀ (n : Nat) (b : Bucket), t.buckets[n]? = some b → b.Packed) ∧
      ∀ key : UInt64, ∃ p b, t.probe key = .ok p ∧ t.bucketOf key = .ok b ∧
        (p.found = true ↔ b.Holds (entryKey key)) := by
  refine ⟨fun n b hb => hr.packed h₀ hb, fun key => ?_⟩
  obtain ⟨p, hp⟩ := (hr.sound h₀.toSound).exists_probe key
  obtain ⟨b, hb, -, hl⟩ := (Table.probe_eq_ok_iff _ _ _).mp hp
  refine ⟨p, b, hp, (Table.bucketAt_eq_ok_iff _ _ _).mpr hb, ?_⟩
  have hiff := (hr.packed h₀ hb).found_lookup_iff t.params t.generation (entryKey key)
  rw [hl] at hiff
  exact hiff

/-- A run in which two probes of an empty bucket return the same slot. Both writers are used, the
older one last and under a third key, so that the record under the key 5 is written over. -/
theorem packed_and_found_iff_kept_writer :
    ∃ (t : Table) (h : History), (Table.single .default).Blank ∧
      Run .on (Table.single .default) t h ∧ h.length = 4 ∧
      (∀ (n : Nat) (b : Bucket), t.buckets[n]? = some b → b.Packed) ∧
      ∀ key : UInt64, ∃ p b, t.probe key = .ok p ∧ t.bucketOf key = .ok b ∧
        (p.found = true ↔ b.Holds (entryKey key)) := by
  have h₀ := Table.blank_single .default
  have hprobed : Run .on (Table.single .default) _
      [.probed 5 (.miss 0 0), .probed 0 (.miss 0 0)] := .probe (.probe .start rfl) rfl
  have hwrote : Run .on (Table.single .default) _
      (.wrote ⟨5, ⟨0, 0⟩, 5, 0, .failedHigh Move.none 1, .overwrite⟩ :: _) :=
    .write (p := .miss 0 0) hprobed (by simp) rfl rfl rfl rfl
  have hr : Run .on (Table.single .default) _
      (.wrote ⟨0, ⟨0, 0⟩, 7, 0, .failedHigh Move.none 1, .overwrite⟩ :: _) :=
    .write (p := .miss 0 0) hwrote (by simp) rfl rfl rfl rfl
  exact ⟨_, _, h₀, hr, rfl, hr.packed_and_found_iff h₀⟩

end Transposition
