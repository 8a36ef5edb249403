import Mathlib.Data.Fintype.Card
import Transposition.Proofs.Provenance
import Transposition.Proofs.Retention

/-!
# Room in a bucket

A record under a new key should go to an unoccupied entry as long as its bucket has one. What decides
is the worth of the entries. An unoccupied entry has the generation zero in its stamp, so it ages with
the table, and in the first 32 generations every record is worth more. When the count of generations
has come round, a record of before that can be worth no more than an unoccupied entry
(`Entry.worth_le_vacant_iff`): its age goes on growing while that of the unoccupied entry has started
again at zero. `Bucket.Overtaken` says when, and `Bucket.Packed.occupied_lookup_iff` that a look-up
passes over the room in a bucket in no other case.

A `SearchRun` is what one search makes of a table: new searches, and writes through fresh writers in
the current generation. As long as no write meets an overtaken entry, such a run can put records under
`entryCount` keys into a bucket, and each of them is found (`SearchRun.room_filled_and_found`).
-/

namespace Transposition

/-! ## Generations in stamps -/

/-- The generation bits of a stamp. -/
def Stamp.generation (s : Stamp) : Nat := s.byte.toNat / 8 * 8

/-- The generation bits of a stamp are those that it was made with. -/
theorem Stamp.generation_make {generation : UInt8} (hg : generation.toNat % 8 = 0) (pv : Bool)
    (b : Bound) : (make generation pv b).generation = generation.toNat := by
  have hbits := b.toBits_lt
  unfold Stamp.generation
  rw [toNat_make hg]
  split <;> omega

/-- A stamp of a generation that is not above the current one has aged by the difference. -/
theorem Stamp.age_of_le {s : Stamp} {generation : UInt8} (hg : generation.toNat % 8 = 0)
    (h : s.generation ≤ generation.toNat) : s.age generation = generation.toNat - s.generation := by
  have hlt := generation.toNat_lt
  rw [age_eq _ _ hg]
  unfold Stamp.generation at h ⊢
  omega

/-- A stamp of a generation above the current one is from before the count came round. -/
theorem Stamp.age_of_lt {s : Stamp} {generation : UInt8} (hg : generation.toNat % 8 = 0)
    (h : generation.toNat < s.generation) :
    s.age generation = generation.toNat + (256 - s.generation) := by
  have hs := s.byte.toNat_lt
  rw [age_eq _ _ hg]
  unfold Stamp.generation at h ⊢
  omega

/-! ## Records and unoccupied entries -/

/-- The entry is from before the count of generations came round, and since then its age weighs at
least as much as its depth. -/
def Entry.Overtaken (p : Replacement) (generation : UInt8) (e : Entry) : Prop :=
  generation.toNat < e.stamp.generation ∧
    (e.depthByte.toNat : Int) ≤ p.ageWeight.toInt * (256 - e.stamp.generation : Nat)

/-- A record is worth no more than an unoccupied entry exactly if it is overtaken. -/
theorem Entry.worth_le_vacant_iff {p : Replacement} {generation : UInt8} {e v : Entry}
    (hw : 0 ≤ p.ageWeight.toInt) (hg : generation.toNat % 8 = 0) (he : e.occupied = true)
    (hv : v.Vacant) :
    Bucket.worth p generation e ≤ Bucket.worth p generation v ↔ e.Overtaken p generation := by
  have hpos := (occupied_iff e).mp he
  have hvacant : Bucket.worth p generation v = -(p.ageWeight.toInt * generation.toNat) := by
    unfold Bucket.worth
    rw [hv.age_eq hg, hv.depthByte]
    simp
  rw [hvacant]
  unfold Bucket.worth Entry.age Overtaken
  by_cases h : e.stamp.generation ≤ generation.toNat
  · -- The record has aged no more than the unoccupied entry, and it has a depth.
    rw [Stamp.age_of_le hg h]
    have hage : p.ageWeight.toInt * (generation.toNat - e.stamp.generation : Nat) ≤
        p.ageWeight.toInt * generation.toNat :=
      Int.mul_le_mul_of_nonneg_left (by omega) hw
    constructor
    · intro hle
      omega
    · rintro ⟨hlt, -⟩
      omega
  · -- The record has aged by what was left of the old count, and by the new count.
    have hlt := Nat.lt_of_not_le h
    rw [Stamp.age_of_lt hg hlt, Int.natCast_add, Int.mul_add]
    constructor
    · exact fun hle => ⟨hlt, by omega⟩
    · rintro ⟨-, hle⟩
      omega

namespace Bucket

/-- A record of the bucket is overtaken. -/
def Overtaken (p : Replacement) (generation : UInt8) (b : Bucket) : Prop :=
  ∃ i, (b.entry i).occupied = true ∧ (b.entry i).Overtaken p generation

/-- A look-up passes over the room in the bucket: the bucket has an unoccupied entry and does not hold
the key, but a record is overtaken. Under the key zero the unoccupied entry matches, so that key is
never concerned. -/
def PassesOver (p : Replacement) (generation : UInt8) (key : UInt16) (b : Bucket) : Prop :=
  key ≠ 0 ∧ ¬b.Holds key ∧ (∃ i, (b.entry i).occupied = false) ∧ b.Overtaken p generation

/-- Without a weight on age nothing is overtaken. -/
theorem not_overtaken_of_ageWeight {p : Replacement} (h : p.ageWeight.toInt = 0)
    (generation : UInt8) (b : Bucket) : ¬b.Overtaken p generation := by
  rintro ⟨i, hi, -, hle⟩
  rw [h, Int.zero_mul] at hle
  have hpos := (Entry.occupied_iff _).mp hi
  omega

section Lookup

variable {p : Replacement} {generation : UInt8} {key : UInt16} {b : Bucket}

/-- In a packed bucket with room, a record gives way exactly if one is overtaken. -/
theorem Packed.occupied_victim_iff (h : b.Packed) (hw : 0 ≤ p.ageWeight.toInt)
    (hg : generation.toNat % 8 = 0) (hroom : ∃ i, (b.entry i).occupied = false) :
    (b.entry (b.victim p generation)).occupied = true ↔ b.Overtaken p generation := by
  obtain ⟨j, hj⟩ := hroom
  constructor
  · intro hv
    -- The one that gives way is worth no more than the unoccupied entry.
    have hle := b.worth_victim_le p generation j
    exact ⟨_, hv, (Entry.worth_le_vacant_iff hw hg hv (h.vacant j hj)).mp hle⟩
  · rintro ⟨i, hi, ho⟩
    by_contra hv
    rw [Bool.not_eq_true] at hv
    -- The records come first, so the overtaken one would have been worth more.
    have hlt : i < b.victim p generation := by
      by_contra hge
      rw [h.occupied_of_le _ i (Nat.le_of_not_lt hge) hi] at hv
      cases hv
    have hworth := b.worth_victim_lt p generation hlt
    have hle := (Entry.worth_le_vacant_iff hw hg hi (h.vacant _ hv)).mpr ho
    omega

/-- If a packed bucket has room for a key that it does not hold, a look-up returns the slot of a
record exactly if it passes over the room. -/
theorem Packed.occupied_lookup_iff (h : b.Packed) (hw : 0 ≤ p.ageWeight.toInt)
    (hg : generation.toNat % 8 = 0) (hroom : ∃ i, (b.entry i).occupied = false)
    (hnone : ¬b.Holds key) :
    (b.entry (b.lookup p generation key).slot).occupied = true ↔
      b.PassesOver p generation key := by
  rcases b.lookup_cases p generation key with
    ⟨i, hkey, -, hi, -⟩ | ⟨i, hkey, -, hi, hl⟩ | ⟨hmiss, hl⟩
  · exact absurd ⟨i, hi, hkey⟩ hnone
  · have hzero : key = 0 := by rw [← hkey, (h.vacant i hi).key]
    rw [hl, hi]
    exact ⟨fun hfalse => absurd hfalse Bool.false_ne_true, fun hpass => absurd hzero hpass.1⟩
  · have hne : key ≠ 0 := by
      obtain ⟨j, hj⟩ := hroom
      rw [← (h.vacant j hj).key]
      exact (hmiss j).symm
    rw [hl]
    show (b.entry (b.victim p generation)).occupied = true ↔ _
    rw [h.occupied_victim_iff hw hg hroom]
    exact ⟨fun ho => ⟨hne, hnone, hroom, ho⟩, fun hpass => hpass.2.2.2⟩

/-- A bucket that holds no two records under one key, and only keys of a set, has room for another key
of the set if the set is no larger than the bucket. -/
theorem Distinct.exists_unoccupied (hd : b.Distinct) {keys : Finset UInt16}
    (hkeys : ∀ x, b.Holds x → x ∈ keys) (hk : key ∈ keys) (hcard : keys.card ≤ entryCount)
    (hnone : ¬b.Holds key) : ∃ i, (b.entry i).occupied = false := by
  by_contra hfull
  have hall : ∀ i, (b.entry i).occupied = true := by
    intro i
    by_contra hi
    exact hfull ⟨i, by simpa using hi⟩
  -- The keys of the three records are different, and none of them is the new one.
  have hle : (Finset.univ : Finset Slot).card ≤ (keys.erase key).card := by
    apply Finset.card_le_card_of_injOn fun i => (b.entry i).key
    · intro i _
      have hi : (b.entry i).key ≠ key := fun heq => hnone ⟨i, hall i, heq⟩
      exact Finset.mem_erase.mpr ⟨hi, hkeys _ ⟨i, hall i, rfl⟩⟩
    · intro i _ j _ hij
      exact hd i j (hall i) (hall j) hij
  rw [Finset.card_univ, Fintype.card_fin, Finset.card_erase_of_mem hk] at hle
  have hpos := Finset.card_pos.mpr ⟨key, hk⟩
  omega

end Lookup

section Save

variable {p : Replacement} {key : UInt16} {generation : UInt8} {r : Record} {slot : Slot}
  {b : Bucket}

/-- A write into an unoccupied slot takes no record away. -/
theorem Holds.save_of_unoccupied (hs : (b.entry slot).occupied = false) {x : UInt16}
    (hx : b.Holds x) : (b.save p key generation r slot).Holds x := by
  obtain ⟨i, hi, hkey⟩ := hx
  have hne : i ≠ slot := by
    rintro rfl
    rw [hs] at hi
    cases hi
  refine ⟨i, occupied_save hi, ?_⟩
  rw [entry_save_of_ne p key generation r b hne]
  exact hkey

/-- A write through a fresh writer takes no record away, if the bucket holds its key or has room for
it, and the room is not passed over. -/
theorem Packed.holds_save_of_holds (hb : b.Packed) (hw : 0 ≤ p.ageWeight.toInt)
    (hg : generation.toNat % 8 = 0) (hl : (b.lookup p generation key).slot = slot)
    (hroom : ¬b.Holds key → ∃ i, (b.entry i).occupied = false)
    (hpass : ¬b.PassesOver p generation key) {x : UInt16} (hx : b.Holds x) :
    (b.save p key generation r slot).Holds x := by
  by_cases hk : b.Holds key
  · exact Holds.save hb hl hk hx
  · refine Holds.save_of_unoccupied ?_ hx
    rw [← hb.occupied_lookup_iff hw hg (hroom hk) hk, hl, Bool.not_eq_true] at hpass
    exact hpass

/-- A write that no unoccupied entry could refuse leaves a record under its key. -/
theorem Packed.holds_save (hb : b.Packed) (hg : generation.toNat % 8 = 0)
    (hr : ¬(key = 0 ∧ generation = 0 ∧ r.bound ≠ .exact ∧
      Entry.claim r + p.depthSlack.toInt ≤ 0)) :
    (b.save p key generation r slot).Holds key := by
  refine ⟨slot, ?_, ?_⟩
  · rw [entry_save_self, Entry.occupied_save_iff]
    by_cases ho : (b.entry slot).occupied = true
    · exact Or.inr ho
    · rw [Bool.not_eq_true] at ho
      rw [← (hb.vacant slot ho).not_yields_iff p key hg r, not_not] at hr
      exact Or.inl hr
  · rw [entry_save_self, Entry.key_save]

end Save

end Bucket

/-! ## Runs of one search after the other -/

/-- The write could be lost on an unoccupied entry: it is under the key zero in generation zero, not
exact, and not deep enough to make up for a negative slack. -/
def Write.Faint (p : Replacement) (w : Write) : Prop :=
  entryKey w.key = 0 ∧ w.generation = 0 ∧ w.record.bound ≠ .exact ∧
    Entry.claim w.record + p.depthSlack.toInt ≤ 0

instance (p : Replacement) (w : Write) : Decidable (w.Faint p) :=
  inferInstanceAs (Decidable (_ ∧ _ ∧ _ ∧ _))

/-- The write of a record under a key through the writer of a probe, in the current generation. -/
def Write.fresh (t : Table) (key : UInt64) (p : Probe) (b : Bucket) (r : Record) : Write where
  probed := key
  writer := p.writer
  key := key
  generation := t.generation
  record := r
  verdict := (b.entry p.writer.slot).verdict t.params (entryKey key) t.generation r

/-- `SearchRun checks start t h`: new searches, and probes each followed by a write of the same key
through the writer in the current generation, lead from the table `start` to the table `t` with the
events `h`. -/
inductive SearchRun (checks : Checks) (start : Table) : Table → History → Prop
  | start : SearchRun checks start start []
  | search {t : Table} {h : History} (run : SearchRun checks start t h) :
      SearchRun checks start t.newSearch (.searched :: h)
  | write {t t' : Table} {h : History} {key : UInt64} {p : Probe} {b : Bucket} {r : Record}
      (run : SearchRun checks start t h) (answer : t.probe key = .ok p)
      (bucket : t.buckets[p.writer.bucket]? = some b)
      (wrote : t.write checks p.writer key t.generation r = (t', none)) :
      SearchRun checks start t' (.wrote (.fresh t key p b r) :: .probed key p :: h)

/-- The entry keys under which a history writes to the bucket of a number. -/
def History.keysTo (number : Nat) (h : History) : Finset UInt16 :=
  (h.filterMap fun
    | .wrote w => if w.writer.bucket = number then some (entryKey w.key) else none
    | _ => none).toFinset

/-- The entry keys under which a history writes to a bucket are those of its writes. -/
theorem History.mem_keysTo {number : Nat} {h : History} {x : UInt16} :
    x ∈ h.keysTo number ↔ ∃ w, .wrote w ∈ h ∧ w.writer.bucket = number ∧ entryKey w.key = x := by
  unfold keysTo
  rw [List.mem_toFinset, List.mem_filterMap]
  constructor
  · rintro ⟨event, hmem, hx⟩
    cases event with
    | wrote w =>
      by_cases hw : w.writer.bucket = number
      · simp only [if_pos hw, Option.some.injEq] at hx
        exact ⟨w, hmem, hw, hx⟩
      · simp [hw] at hx
    | searched => cases hx
    | probed key p => cases hx
  · rintro ⟨w, hmem, hw, rfl⟩
    exact ⟨_, hmem, by simp [hw]⟩

/-- What is written later only adds to the keys. -/
theorem History.keysTo_subset_cons (number : Nat) (event : Event) (h : History) :
    h.keysTo number ⊆ History.keysTo number (event :: h) := by
  intro x hx
  obtain ⟨w, hw, hrest⟩ := mem_keysTo.mp hx
  exact mem_keysTo.mpr ⟨w, List.mem_cons_of_mem _ hw, hrest⟩

/-- No write of a history to the bucket of a number has passed over the room in it. -/
def SearchRun.Undisturbed (checks : Checks) (start : Table) (number : Nat) (h : History) : Prop :=
  ∀ (t : Table) (older : History) (w : Write) (event : Event) (b : Bucket),
    .wrote w :: event :: older <:+ h → SearchRun checks start t older →
    w.writer.bucket = number → t.buckets[number]? = some b →
    ¬b.PassesOver t.params t.generation (entryKey w.key)

namespace SearchRun

variable {checks : Checks} {start t : Table} {h : History}

/-- The events of such a run are those of a run. -/
theorem run (hr : SearchRun checks start t h) : Run checks start t h := by
  induction hr with
  | start => exact .start
  | search _ ih => exact .search ih
  | write _ answer bucket wrote ih =>
    exact .write (.probe ih answer) List.mem_cons_self rfl bucket rfl wrote

/-- The writers of such a run are fresh. -/
theorem freshRun (hr : SearchRun checks start t h) : FreshRun checks start t := by
  induction hr with
  | start => exact .start
  | search _ ih => exact .search ih
  | write _ answer _ wrote ih => exact .write ih answer wrote

/-- Several searches can be started one after the other. -/
theorem searches (hr : SearchRun checks start t h) (times : Nat) :
    SearchRun checks start (times.repeat Table.newSearch t) (List.replicate times .searched ++ h) := by
  induction times with
  | zero => exact hr
  | succ n ih => exact .search ih

/-- From a blank table, the generation counts the searches in steps of eight. -/
theorem generation (h₀ : start.Blank) (hr : SearchRun checks start t h) :
    t.generation.toNat = 8 * h.searches % 256 := hr.run.generation_eq h₀

/-- From a blank table, each write of such a run has passed the generation of its search. -/
theorem generation_le_of_wrote (h₀ : start.Blank) (hr : SearchRun checks start t h) {w : Write}
    (hw : .wrote w ∈ h) : w.Proper ∧ w.generation.toNat ≤ 8 * h.searches := by
  induction hr with
  | start => cases hw
  | search _ ih =>
    obtain ⟨hproper, hle⟩ := ih (by simpa using hw)
    exact ⟨hproper, by rw [History.searches_searched]; omega⟩
  | @write t t' h key p b r hrun _ _ _ ih =>
    simp only [History.searches_wrote, History.searches_probed]
    rcases List.mem_cons.mp hw with heq | hw
    · obtain rfl := Event.wrote.inj heq
      have hg := hrun.generation h₀
      exact ⟨⟨rfl, hrun.run.generation h₀⟩, by show t.generation.toNat ≤ _; omega⟩
    · exact ih (by simpa using hw)

/-- The key of a record is one under which the run has written to the bucket. -/
theorem mem_keysTo_of_holds (h₀ : start.Blank) (hr : SearchRun checks start t h) {number : Nat}
    {b : Bucket} (hb : t.buckets[number]? = some b) {x : UInt16} (hx : b.Holds x) :
    x ∈ h.keysTo number := by
  obtain ⟨i, hi, rfl⟩ := hx
  obtain ⟨w, newer, older, rfl, ho⟩ :=
    (hr.run.holds (accounted_invariant start.params) h₀ hb i).2 hi
  exact History.mem_keysTo.mpr ⟨w, by simp, by rw [ho.writer], ho.key.symm⟩

/-- Before the count of generations first comes round, and without a weight on age, no record is
overtaken, and so no room is passed over. -/
theorem not_passesOver (h₀ : start.Blank) (hr : SearchRun checks start t h)
    (hfew : h.searches < 32 ∨ start.params.ageWeight = 0) {number : Nat} {b : Bucket}
    (hb : t.buckets[number]? = some b) (key : UInt16) :
    ¬b.PassesOver t.params t.generation key := by
  suffices hno : ¬b.Overtaken t.params t.generation from fun hpass => hno hpass.2.2.2
  rcases hfew with hfew | hzero
  · rintro ⟨i, hi, hlt, -⟩
    -- The stamp is that of a write of the run, whose generation was reached without coming round.
    obtain ⟨w, newer, older, rfl, ho⟩ :=
      (hr.run.holds (accounted_invariant start.params) h₀ hb i).2 hi
    obtain ⟨hproper, hle⟩ := hr.generation_le_of_wrote h₀ (w := w) (by simp)
    have hg := hr.generation h₀
    rw [ho.stamp, Stamp.generation_make hproper.generation] at hlt
    omega
  · apply Bucket.not_overtaken_of_ageWeight
    rw [hr.run.frame.2.2, hzero]
    rfl

/-- What nothing has disturbed was not disturbed before. -/
theorem Undisturbed.of_suffix {number : Nat} {older : History} (hs : older <:+ h)
    (hu : Undisturbed checks start number h) : Undisturbed checks start number older :=
  fun t _ w event b hsuffix => hu t _ w event b (hsuffix.trans hs)

/-- Nothing is disturbed before the count of generations first comes round, nor without a weight on
age. -/
theorem undisturbed (h₀ : start.Blank) (hfew : h.searches < 32 ∨ start.params.ageWeight = 0)
    (number : Nat) : Undisturbed checks start number h := by
  intro t older w event b hsuffix hr _ hb
  have hle : older.searches ≤ h.searches := by
    have hs : older <:+ h :=
      (List.suffix_cons event older).trans ((List.suffix_cons _ _).trans hsuffix)
    exact hs.sublist.count_le _
  exact hr.not_passesOver h₀ (hfew.imp_left fun hlt => Nat.lt_of_le_of_lt hle hlt) hb _

/-- A further write to a bucket takes no record away, if it passes over no room and the keys written so
far, with its own, are no more than the bucket has entries. -/
theorem holds_write (hw₀ : 0 ≤ start.params.ageWeight.toInt) (h₀ : start.Blank)
    (hr : SearchRun checks start t h) {key : UInt64} {p : Probe} {b : Bucket}
    (answer : t.probe key = .ok p) (bucket : t.buckets[p.writer.bucket]? = some b)
    (hpass : ¬b.PassesOver t.params t.generation (entryKey key)) {keys : Finset UInt16}
    (hkeys : h.keysTo p.writer.bucket ⊆ keys) (hk : entryKey key ∈ keys)
    (hcard : keys.card ≤ entryCount) (r : Record) {x : UInt16} (hx : b.Holds x) :
    (b.save t.params (entryKey key) t.generation r p.writer.slot).Holds x := by
  obtain ⟨c, hc, hbucket, hl⟩ := (Table.probe_eq_ok_iff _ _ _).mp answer
  rw [← hbucket, bucket, Option.some.injEq] at hc
  subst hc
  have hweight : 0 ≤ t.params.ageWeight.toInt := by
    rw [hr.run.frame.2.2]
    exact hw₀
  refine (hr.run.packed h₀ bucket).holds_save_of_holds hweight (hr.run.generation h₀)
    (congrArg Lookup.slot hl) (fun hnone => ?_) hpass hx
  -- Every record is under one of the keys, so a bucket without room would hold this key as well.
  exact (hr.freshRun.distinct h₀ bucket).exists_unoccupied
    (fun y hy => hkeys (hr.mem_keysTo_of_holds h₀ bucket hy)) hk hcard hnone

/-- A bucket to which a run has written under no more keys than it has entries, and nothing was
disturbed, holds all these keys, except for those whose writes were faint. -/
theorem holds_of_wrote (hw₀ : 0 ≤ start.params.ageWeight.toInt) (h₀ : start.Blank)
    (hr : SearchRun checks start t h) {number : Nat} (hu : Undisturbed checks start number h)
    (hcard : (h.keysTo number).card ≤ entryCount) {b : Bucket}
    (hb : t.buckets[number]? = some b) {w : Write} (hw : .wrote w ∈ h)
    (hn : w.writer.bucket = number) (hf : ¬w.Faint start.params) : b.Holds (entryKey w.key) := by
  induction hr generalizing b w with
  | start => cases hw
  | @search t h hrun ih =>
    refine ih (hu.of_suffix (List.suffix_cons _ _)) ?_ hb (by simpa using hw) hn hf
    exact (Finset.card_le_card (History.keysTo_subset_cons number _ h)).trans hcard
  | @write t t' h key p c r hrun answer bucket wrote ih =>
    obtain rfl := Table.eq_of_write bucket wrote
    have hu' := hu.of_suffix ((List.suffix_cons (.probed key p) h).trans (List.suffix_cons _ _))
    have hsubset : h.keysTo number ⊆
        History.keysTo number (.wrote (.fresh t key p c r) :: .probed key p :: h) :=
      (History.keysTo_subset_cons number (.probed key p) h).trans
        (History.keysTo_subset_cons number _ _)
    have hcard' := (Finset.card_le_card hsubset).trans hcard
    rcases Table.getElem?_setBucket_cases bucket hb with ⟨rfl, rfl⟩ | ⟨hne, hb⟩
    · rcases List.mem_cons.mp hw with heq | hw
      · -- The new write itself.
        obtain rfl := Event.wrote.inj heq
        rw [← hrun.run.frame.2.2] at hf
        exact (hrun.run.packed h₀ bucket).holds_save (hrun.run.generation h₀) hf
      · -- A key of an older write was held before this one, and stays.
        have hpass := hu t h (.fresh t key p c r) (.probed key p) c List.suffix_rfl hrun rfl bucket
        refine hrun.holds_write hw₀ h₀ answer bucket hpass hsubset ?_ hcard r
          (ih hu' hcard' bucket (by simpa using hw) hn hf)
        exact History.mem_keysTo.mpr ⟨_, List.mem_cons_self, rfl, rfl⟩
    · rcases List.mem_cons.mp hw with heq | hw
      · obtain rfl := Event.wrote.inj heq
        exact absurd hn.symm hne
      · exact ih hu' hcard' hb (by simpa using hw) hn hf

/-- In every state of such a run from a blank table with valid parameters, the writer of a probe
points at an unoccupied entry if the bucket has one and does not hold the key, except exactly if the
look-up passes over it; and that cannot happen in the first 32 generations, nor without a weight on
age. It follows that a bucket to which the run has written under at most `entryCount` keys has lost
none of them, unless one of the writes has passed over the room in it: each is found, if its write was
not so faint that an unoccupied entry could refuse it. -/
theorem room_filled_and_found (hv : start.params.Valid) (h₀ : start.Blank)
    (hr : SearchRun checks start t h) :
    (∀ key : UInt64, ∃ p b, t.probe key = .ok p ∧ t.bucketOf key = .ok b ∧
      p.writer.bucket = t.indexOf key ∧
      ((∃ i, (b.entry i).occupied = false) → ¬b.Holds (entryKey key) →
        ((b.entry p.writer.slot).occupied = false ↔
          ¬b.PassesOver t.params t.generation (entryKey key)))) ∧
      (h.searches < 32 ∨ start.params.ageWeight = 0 →
        ∀ (number : Nat) (b : Bucket) (key : UInt16), t.buckets[number]? = some b →
          ¬b.PassesOver t.params t.generation key) ∧
      ∀ number : Nat, Undisturbed checks start number h →
        (h.keysTo number).card ≤ entryCount →
        ∀ w, .wrote w ∈ h → w.writer.bucket = number → ¬w.Faint start.params →
          ∃ q, t.probe w.key = .ok q ∧ q.found = true := by
  have hsound := hr.run.sound h₀.toSound
  have hweight : 0 ≤ start.params.ageWeight.toInt := (hv .ageWeight (by decide)).1
  refine ⟨fun key => ?_, ?_, ?_⟩
  · obtain ⟨p, hp⟩ := hsound.exists_probe key
    obtain ⟨b, hb, hbucket, hl⟩ := (Table.probe_eq_ok_iff _ _ _).mp hp
    refine ⟨p, b, hp, (Table.bucketAt_eq_ok_iff _ _ _).mpr hb, hbucket, fun hroom hnone => ?_⟩
    have hiff := (hr.run.packed h₀ hb).occupied_lookup_iff (p := t.params)
      (by rw [hr.run.frame.2.2]; exact hweight) (hr.run.generation h₀) hroom hnone
    rw [hl] at hiff
    rw [← hiff, Bool.not_eq_true]
  · exact fun hfew number b key hb => hr.not_passesOver h₀ hfew hb key
  · intro number hu hcard w hw hn hf
    obtain ⟨q, hq⟩ := hsound.exists_probe w.key
    obtain ⟨b, hb, -, hl⟩ := (Table.probe_eq_ok_iff _ _ _).mp hq
    -- The write went to the bucket of its key, in which the probe looks it up.
    have hindex : t.indexOf w.key = number := by
      rw [← hn, hr.run.bucket_of_wrote hw (hr.generation_le_of_wrote h₀ hw).1]
    have hfound := (hr.run.packed h₀ hb).found_lookup_iff t.params t.generation (entryKey w.key)
    rw [hl] at hfound
    rw [hindex] at hb
    exact ⟨q, hq, hfound.mpr (hr.holds_of_wrote hweight h₀ hu hcard hb hw hn hf)⟩

/-- Two records in one bucket: there was room for the second, and both are found. -/
theorem room_filled_and_found_two_keys :
    ∃ (t : Table) (h : History), (Table.single .default).params.Valid ∧
      (Table.single .default).Blank ∧ SearchRun .on (Table.single .default) t h ∧
      h.searches = 1 ∧ (h.keysTo 0).card ≤ entryCount ∧
      (∃ q, t.probe 5 = .ok q ∧ q.found = true) ∧ ∃ q, t.probe 9 = .ok q ∧ q.found = true := by
  have hv : (Table.single .default).params.Valid := by decide
  have h₀ := Table.blank_single .default
  have hwrote : SearchRun .on (Table.single .default) _
      [.wrote ⟨5, ⟨0, 0⟩, 5, 8, .failedHigh Move.none 3, .overwrite⟩, .probed 5 (.miss 0 0),
        .searched] :=
    .write (p := .miss 0 0) (b := Bucket.empty) (r := .failedHigh Move.none 3)
      (.search .start) rfl rfl rfl
  obtain ⟨t, h, hr, hs, hcard, hw⟩ : ∃ t h, SearchRun .on (Table.single .default) t h ∧
      h.searches = 1 ∧ (h.keysTo 0).card ≤ entryCount ∧
      ∀ w ∈ ([⟨5, ⟨0, 0⟩, 5, 8, .failedHigh Move.none 3, .overwrite⟩,
        ⟨9, ⟨0, 1⟩, 9, 8, .failedHigh Move.none 1, .overwrite⟩] : List Write),
        .wrote w ∈ h ∧ w.writer.bucket = 0 ∧ ¬w.Faint .default :=
    ⟨_, [.wrote ⟨9, ⟨0, 1⟩, 9, 8, .failedHigh Move.none 1, .overwrite⟩, .probed 9 (.miss 0 1),
        .wrote ⟨5, ⟨0, 0⟩, 5, 8, .failedHigh Move.none 3, .overwrite⟩, .probed 5 (.miss 0 0),
        .searched],
      .write (p := .miss 0 1)
        (b := Bucket.empty.save .default 5 8 (.failedHigh Move.none 3) 0)
        (r := .failedHigh Move.none 1) hwrote rfl rfl rfl,
      rfl, by decide, by decide⟩
  have hu : Undisturbed .on (Table.single .default) 0 h :=
    undisturbed h₀ (Or.inl (by rw [hs]; decide)) 0
  have hfound := fun w hmem => (hr.room_filled_and_found hv h₀).2.2 0 hu hcard w (hw w hmem).1
    (hw w hmem).2.1 (hw w hmem).2.2
  have hfirst := hfound _ (.head _)
  have hsecond := hfound _ (.tail _ (.head _))
  exact ⟨t, h, hv, h₀, hr, hs, hcard, hfirst, hsecond⟩

/-- Room that is passed over in a created table: a record of depth zero from the second generation,
which after 31 more searches is overtaken, gives way to a new key beside two unoccupied entries. -/
theorem exists_passed_over_room :
    ¬∀ (memory : Memory) (crew : Crew) (params : Replacement) (bytes : UInt64) (start t : Table)
        (notices : List Notice) (checks : Checks) (h : History) (key : UInt64) (p : Probe)
        (b : Bucket),
      Table.create memory crew params bytes = .ok ⟨start, notices, none⟩ →
        SearchRun checks start t h → t.probe key = .ok p → t.bucketOf key = .ok b →
        (∃ i, (b.entry i).occupied = false) → ¬b.Holds (entryKey key) →
        (b.entry p.writer.slot).occupied = false := by
  intro hall
  have hs : Table.create ⟨fun _ => true⟩ .single .default 32 =
      .ok ⟨⟨.block 2097152, #[Bucket.empty], 1, 0, .default⟩, _, none⟩ := rfl
  have hwrote : SearchRun .on ⟨.block 2097152, #[Bucket.empty], 1, 0, .default⟩ _
      [.wrote _, .probed 1 (.miss 0 0), .searched] :=
    .write (p := .miss 0 0) (b := Bucket.empty) (r := .failedHigh Move.none 0)
      (.search .start) rfl rfl rfl
  have hroom := hall _ _ _ _ _ _ _ _ _ 2 (.miss 0 0) _ hs (hwrote.searches 31) rfl rfl ⟨1, rfl⟩
  -- The only record is under the key 1, and it stands in the slot of the writer.
  have hnone : ¬(Bucket.empty.save .default 1 8 (.failedHigh Move.none 0) 0).Holds 2 := by
    rintro ⟨i, hi, hkey⟩
    rcases Bucket.slot_cases i with rfl | rfl | rfl
    · exact absurd hkey (by decide)
    · exact absurd hi (by decide)
    · exact absurd hi (by decide)
  exact Bool.noConfusion (hroom hnone)

end SearchRun

end Transposition
