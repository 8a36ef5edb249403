import Transposition.Proofs.Erosion

/-!
# Writing the same record again and again

A write that contends with an entry, in that nothing but the depths decides between them
(`Entry.Contends`), succeeds if the entry's depth is below its reach. As long as it is refused it
wears the entry down, and so it may succeed when it is made again. The depth that it meets at each
attempt is known beforehand (`Entry.wornDepth_lt_iff`), and so is which attempt is the first to
succeed (`Entry.Contends.first_yields`), and whether any does (`Entry.Contends.never_yields`).

After the first success the entry is of the depth of the record. If the write would overwrite this as
well, then every further attempt stores what is there already (`Bucket.save_save_of_yields`).
-/

namespace Transposition

/-- A depth that can be stored is not changed by clamping. -/
theorem Depth.clamp_of_storable {d : Depth} (h : d.Storable) : d.clamp = d.toInt := by
  obtain ⟨hlow, hhigh⟩ := h
  unfold clamp
  omega

/-- Setting a flag again changes nothing. -/
theorem Flags.set_set (f : Flags) (i : Nat) (flag : Bool) :
    (f.set i flag).set i flag = f.set i flag := by
  cases flag
  · simp only [set, Bool.false_eq_true, if_false, UInt16.and_assoc, UInt16.and_self]
  · simp only [set, if_true, UInt16.or_assoc, UInt16.or_self]

/-! ## Entries -/

namespace Entry

/-- The depths alone decide whether a write overwrites an entry: it is under the entry's key and of
the entry's generation, it is not exact, and its depth can be stored. -/
structure Contends (o : Offer) (e : Entry) : Prop where
  /-- The key is the stored one. -/
  key : o.key = e.key
  /-- The low bits of the generation are zero. -/
  generation : o.generation.toNat % 8 = 0
  /-- The other bits are those of the stamp. -/
  current : e.stamp.byte.toNat / 8 = o.generation.toNat / 8
  /-- The written bound is not exact. -/
  bound : o.record.bound ≠ .exact
  /-- The written depth can be stored. -/
  storable : o.record.depth.Storable

variable {p : Replacement} {o : Offer} {e : Entry} {n : Nat}

/-- Of a write that contends, an entry asks only for the depth. -/
theorem Contends.withstands_iff (h : e.Contends o) :
    e.Withstands p n o ↔ p.reach o.record ≤ e.wornDepth p n := by
  have hage : e.age o.generation = 0 := (Stamp.age_eq_zero_iff _ h.generation).mpr h.current
  exact ⟨fun hw => hw.depth, fun hreach => ⟨h.key, hage, h.bound, hreach⟩⟩

/-- A write that contends overwrites the entries below its reach. -/
theorem Contends.yields_iff (h : e.Contends o) :
    e.Yields p o.key o.generation o.record ↔ e.depth.toInt < p.reach o.record := by
  have hworn := (Worn.refl p e).depth
  rw [← not_iff_not, not_yields_iff, h.withstands_iff, Int.not_lt, hworn]

/-- A write contends with what it leaves, whether it has been refused or not. -/
theorem Contends.save (h : e.Contends o) (p : Replacement) :
    (e.save p o.key o.generation o.record).Contends o where
  key := (key_save p o.key o.generation o.record e).symm
  generation := h.generation
  current := by
    -- An overwrite makes a new stamp of the generation that is passed; a refused write leaves it.
    by_cases hy : e.Yields p o.key o.generation o.record
    · rw [save_of_yields hy]
      exact (Stamp.age_eq_zero_iff _ h.generation).mp (Stamp.age_make_self h.generation _ _)
    · rw [(worn_save hy).stamp]
      exact h.current
  bound := h.bound
  storable := h.storable

/-- The entry after one attempt more. -/
theorem saveAll_replicate_succ (p : Replacement) (o : Offer) (e : Entry) (n : Nat) :
    e.saveAll p (List.replicate (n + 1) o) =
      (e.saveAll p (List.replicate n o)).save p o.key o.generation o.record := by
  unfold saveAll
  rw [List.replicate_succ', List.foldl_append]
  rfl

/-- A write contends with what any number of attempts leave. -/
theorem Contends.saveAll (h : e.Contends o) (p : Replacement) (n : Nat) :
    (e.saveAll p (List.replicate n o)).Contends o := by
  induction n with
  | zero => exact h
  | succ n ih =>
    rw [saveAll_replicate_succ]
    exact ih.save p

/-- A write is refused so many times in a row exactly if each of the depths that it meets is out of
its reach. -/
theorem Contends.refusesAll_replicate_iff (h : e.Contends o) :
    e.RefusesAll p (List.replicate n o) ↔ ∀ m < n, p.reach o.record ≤ e.wornDepth p m := by
  rw [refusesAll_iff]
  constructor
  · intro hall m hm
    exact h.withstands_iff.mp (hall m o (List.getElem?_replicate_of_lt hm))
  · intro hall m o' ho'
    rw [List.getElem?_replicate, Option.ite_none_right_eq_some, Option.some.injEq] at ho'
    obtain ⟨hm, rfl⟩ := ho'
    exact h.withstands_iff.mpr (hall m hm)

/-- After refused attempts, the next succeeds exactly if the depth that they have left is within
reach. -/
theorem Contends.yields_saveAll_iff (h : e.Contends o)
    (hall : ∀ m < n, p.reach o.record ≤ e.wornDepth p m) :
    (e.saveAll p (List.replicate n o)).Yields p o.key o.generation o.record ↔
      e.wornDepth p n < p.reach o.record := by
  have hworn := (h.refusesAll_replicate_iff.mpr hall).worn
  rw [List.length_replicate] at hworn
  rw [(h.saveAll p n).yields_iff, hworn.depth]

/-- An entry that is not exact is worn to below a depth by enough writes, provided that its own depth
or the floor is below it. -/
theorem wornDepth_lt_iff (hb : e.bound ≠ .exact) (a : Int) :
    e.wornDepth p n < a ↔ min e.depth.toInt p.decayFloor < a ∧ e.depth.toInt - a < n := by
  unfold wornDepth
  simp only [or_iff_right hb]
  split <;> omega

/-- If an entry that is not exact, or what refused writes can make of it, is within reach, then the
first attempt to succeed comes after as many others as the entry has to lose in depth for it. -/
theorem Contends.first_yields (h : e.Contends o) (hb : e.bound ≠ .exact)
    (hlow : min e.depth.toInt p.decayFloor < p.reach o.record)
    (hn : (n : Int) = max 0 (e.depth.toInt - p.reach o.record + 1)) :
    (e.saveAll p (List.replicate n o)).Yields p o.key o.generation o.record ∧
      ∀ m < n, ¬(e.saveAll p (List.replicate m o)).Yields p o.key o.generation o.record := by
  -- Before that many attempts the entry is out of reach.
  have hbefore (m : Nat) (hm : m < n) : p.reach o.record ≤ e.wornDepth p m := by
    rw [← Int.not_lt, wornDepth_lt_iff hb]
    omega
  have hafter : e.wornDepth p n < p.reach o.record :=
    (wornDepth_lt_iff hb _).mpr ⟨hlow, by omega⟩
  refine ⟨(h.yields_saveAll_iff hbefore).mpr hafter, fun m hm => ?_⟩
  rw [h.yields_saveAll_iff fun k hk => hbefore k (Nat.lt_trans hk hm), Int.not_lt]
  exact hbefore m hm

/-- If neither an entry that is not exact nor what refused writes can make of it is within reach, then
no attempt succeeds. -/
theorem Contends.never_yields (h : e.Contends o) (hb : e.bound ≠ .exact)
    (hhigh : p.reach o.record ≤ min e.depth.toInt p.decayFloor) (n : Nat) :
    ¬(e.saveAll p (List.replicate n o)).Yields p o.key o.generation o.record := by
  have hnever (m : Nat) : p.reach o.record ≤ e.wornDepth p m := by
    rw [← Int.not_lt, wornDepth_lt_iff hb]
    omega
  rw [h.yields_saveAll_iff fun m _ => hnever m, Int.not_lt]
  exact hnever n

/-- An overwrite takes nothing but the move from the entry. -/
theorem overwrite_congr {e' : Entry} (h : e.move = e'.move) (key : UInt16) (generation : UInt8)
    (r : Record) : e.overwrite key generation r = e'.overwrite key generation r := by
  unfold overwrite
  rw [h]

/-- A write that overwrites what it has just stored changes nothing. -/
theorem save_save_of_yields {key : UInt16} {generation : UInt8} {r : Record}
    (h : e.Yields p key generation r)
    (h' : (e.save p key generation r).Yields p key generation r) :
    (e.save p key generation r).save p key generation r = e.save p key generation r := by
  have hmove : ((e.save p key generation r).withMove key r).move = (e.withMove key r).move := by
    rw [withMove_eq key r (e.save p key generation r), move_save_eq_withMove, withMove_eq key r e]
    -- Either the record has a move, or the first write has left one that stays.
    by_cases hnone : r.move = Move.none
    · simp [hnone, key_save]
    · simp [hnone]
  rw [save_of_yields h', overwrite_congr hmove, ← save_of_yields h]

end Entry

/-! ## Buckets -/

namespace Bucket

variable {p : Replacement} {slot : Slot} {b : Bucket}

/-- The bucket after one attempt more. -/
theorem saveAll_replicate_succ (p : Replacement) (slot : Slot) (o : Offer) (b : Bucket) (n : Nat) :
    b.saveAll p slot (List.replicate (n + 1) o) =
      (b.saveAll p slot (List.replicate n o)).save p o.key o.generation o.record slot := by
  unfold saveAll
  rw [List.replicate_succ', List.foldl_append]
  rfl

/-- To put an entry where it is changes nothing. -/
theorem setEntry_entry (b : Bucket) (slot : Slot) : b.setEntry slot (b.entry slot) = b := by
  show ({ b with entries := b.entries.set slot.val b.entries[slot.val] slot.isLt } : Bucket) = b
  rw [Vector.set_getElem_self]

section Save

variable {key : UInt16} {generation : UInt8} {r : Record}

/-- A write that overwrites replaces the entry and sets the flag. -/
theorem save_of_yields (h : (b.entry slot).Yields p key generation r) :
    b.save p key generation r slot =
      (b.setEntry slot ((b.entry slot).save p key generation r)).setFlag slot r.cut := by
  unfold save
  rw [(Entry.verdict_eq_overwrite_iff _ _ _ _ _).mpr h]

/-- A write that overwrites what it has just stored changes nothing in the bucket. -/
theorem save_save_of_yields (h : (b.entry slot).Yields p key generation r)
    (h' : ((b.save p key generation r slot).entry slot).Yields p key generation r) :
    (b.save p key generation r slot).save p key generation r slot =
      b.save p key generation r slot := by
  have hentry : ((b.save p key generation r slot).entry slot).save p key generation r =
      (b.save p key generation r slot).entry slot := by
    rw [entry_save_self] at h' ⊢
    exact Entry.save_save_of_yields h h'
  have hflags : (b.save p key generation r slot).flags.set slot r.cut =
      (b.save p key generation r slot).flags := by
    rw [save_of_yields h]
    exact Flags.set_set b.flags slot r.cut
  rw [save_of_yields h', hentry, setEntry_entry]
  unfold setFlag
  rw [hflags]

end Save

/-- Once a write that contends has overwritten the slot, and would do so again, further attempts change
nothing. -/
theorem saveAll_replicate_of_yields {o : Offer} {n : Nat} (ho : (b.entry slot).Contends o)
    (hagain : 0 < 2 * (o.record.pv.toNat : Int) + p.depthSlack.toInt)
    (hy : ((b.entry slot).saveAll p (List.replicate n o)).Yields p o.key o.generation o.record)
    {m : Nat} (hm : n < m) :
    b.saveAll p slot (List.replicate m o) = b.saveAll p slot (List.replicate (n + 1) o) := by
  have hcontends := ho.saveAll p n
  rw [← entry_saveAll_self] at hcontends hy
  have hy' : ((b.saveAll p slot (List.replicate (n + 1) o)).entry slot).Yields p o.key o.generation
      o.record := by
    rw [saveAll_replicate_succ, entry_save_self, (hcontends.save p).yields_iff,
      Entry.save_of_yields hy]
    -- The entry has the depth of the record now.
    show (Depth.ofByte o.record.depth.toByte).toInt < _
    rw [Depth.toInt_ofByte_toByte]
    unfold Replacement.reach
    omega
  -- So every later attempt overwrites what the one before it has stored.
  induction hm with
  | refl => rfl
  | step _ ih =>
    rw [saveAll_replicate_succ, ih]
    rw [saveAll_replicate_succ] at hy' ⊢
    exact save_save_of_yields hy hy'

/-- A write is made again and again into a slot of a bucket, under the key of the entry there and of
its generation; neither the write nor the entry is exact, and the depth of the write can be stored.
Let `D` be the depth of the entry, and `a` that of the write, with two plies more for a node of the
principal variation and with the slack. The attempt after `n` others is taken if it overwrites what
these have left.

If `D` or the floor of decay is below `a`, then the first attempt that is taken is the one after
`max 0 (D - a + 1)` others. If neither is, no attempt ever is taken. And if the slack, with the two
plies, is positive, then nothing changes in the bucket after an attempt that is taken. -/
theorem first_taken_and_settled {o : Offer} (ho : (b.entry slot).Contends o)
    (hb : (b.entry slot).bound ≠ .exact) :
    let D := (b.entry slot).depth.toInt
    let a := o.record.depth.toInt + 2 * o.record.pv.toNat + p.depthSlack.toInt
    let floor := max (p.decayThreshold.toInt - 1) Depth.minStorable.toInt
    let after (n : Nat) := b.saveAll p slot (List.replicate n o)
    let taken (n : Nat) :=
      ((after n).entry slot).verdict p o.key o.generation o.record = .overwrite
    (min D floor < a →
      ∃ n : Nat, (n : Int) = max 0 (D - a + 1) ∧ taken n ∧ ∀ m < n, ¬taken m) ∧
    (a ≤ min D floor → ∀ n, ¬taken n) ∧
    (0 < 2 * (o.record.pv.toNat : Int) + p.depthSlack.toInt →
      ∀ n, taken n → ∀ m > n, after m = after (n + 1)) := by
  intro D a floor after taken
  have hreach : p.reach o.record = a := by
    unfold Replacement.reach
    rw [Depth.clamp_of_storable ho.storable]
  have htaken (n : Nat) : taken n ↔
      ((b.entry slot).saveAll p (List.replicate n o)).Yields p o.key o.generation o.record := by
    rw [← entry_saveAll_self]
    exact Entry.verdict_eq_overwrite_iff _ _ _ _ _
  simp only [htaken]
  refine ⟨fun hlow => ?_, fun hhigh n => ?_, fun hagain n hn m hm => ?_⟩
  · have hn : ((D - a + 1).toNat : Int) = max 0 (D - a + 1) := by omega
    have hn' : ((D - a + 1).toNat : Int) = max 0 (D - p.reach o.record + 1) := by
      rw [hreach]
      exact hn
    rw [← hreach] at hlow
    exact ⟨_, hn, ho.first_yields hb hlow hn'⟩
  · rw [← hreach] at hhigh
    exact ho.never_yields hb hhigh n
  · exact saveAll_replicate_of_yields ho hagain hn hm

/-- A record of depth 8, and a write of depth 4 from a node of the principal variation, under a slack
of minus one and a floor of 2. It reaches entries below depth 5, so it is refused four times and then
taken; and since it would be taken again, nothing changes after that. -/
theorem first_taken_and_settled_fifth :
    let p : Replacement := ⟨-1, 3, 2⟩
    let b := Bucket.empty.save p 5 248 ⟨⟨7⟩, ⟨100⟩, ⟨-100⟩, 8, .upper, false, true⟩ 1
    let o : Offer := ⟨5, 248, ⟨Move.none, ⟨40000⟩, ⟨1⟩, 4, .lower, true, false⟩⟩
    let after (n : Nat) := b.saveAll p 1 (List.replicate n o)
    let taken (n : Nat) := ((after n).entry 1).verdict p o.key o.generation o.record = .overwrite
    (b.entry 1).Contends o ∧ (b.entry 1).bound ≠ .exact ∧ taken 4 ∧ (∀ m < 4, ¬taken m) ∧
      ∀ m > 4, after m = after 5 := by
  intro p b o after taken
  have ho : (b.entry 1).Contends o := ⟨by decide, by decide, by decide, by decide, by decide⟩
  have hb : (b.entry 1).bound ≠ .exact := by decide
  obtain ⟨hfirst, -, hsettled⟩ := first_taken_and_settled (p := p) ho hb
  obtain ⟨n, hn, htaken, hbefore⟩ := hfirst (by decide)
  obtain rfl : n = 4 := Int.ofNat.inj (hn.trans (by decide))
  exact ⟨ho, hb, htaken, hbefore, hsettled (by decide) 4 htaken⟩

end Bucket

end Transposition
