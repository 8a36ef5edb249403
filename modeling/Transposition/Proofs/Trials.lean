import Transposition.Proofs.Draws
import Transposition.Proofs.Occupancy
import Transposition.Proofs.ReadBack
import Transposition.Stress.Round

/-!
# What the rounds of a stress run count

A probe counts as corrupt if it finds a record that no trial can have written: without a bound, with a
value beyond the limit of trials, or with a depth that cannot be stored. So what has to be kept is a
property of all occupied entries (`Table.Uncorrupted`), also of those under keys that no probe has asked
for, since a look-up compares 16 bits of the key only. An overwrite stores the record of a trial, a
refused write keeps the bound and the value of its entry and leaves it occupied, and every depth of an
occupied entry can be stored (`Bucket.Plausible.save`).

From this follows what one trial counts, what the trials of a thread and of several threads do
(`Tallied`), and what is reported of a round (`Row.Clean`). No more is asked of the trials than that
they lie in their ranges, so all of this holds whatever is drawn.
-/

namespace Transposition

/-! ## Buckets -/

/-- The depth of an occupied entry can be stored. -/
theorem Entry.storable_depth {e : Entry} (h : e.occupied = true) : e.depth.Storable := by
  have hpos := (occupied_iff e).mp h
  have hlt := e.depthByte.toNat_lt
  unfold Depth.Storable depth
  rw [Depth.toInt_ofByte, Depth.toInt_minStorable, Depth.toInt_maxStorable]
  omega

/-- The value of a trial fits 16 bits. -/
theorem Stress.Trial.InRange.fits_value {trial : Stress.Trial} (h : trial.InRange) :
    trial.record.value.Fits := by
  obtain ⟨hlow, hhigh⟩ := h.value
  unfold Stress.scoreLimit at hlow hhigh
  unfold Score.Fits
  omega

namespace Bucket

/-- Every occupied entry holds a record that some trial can have written. -/
def Plausible (b : Bucket) : Prop :=
  ∀ i, (b.entry i).occupied = true → Stress.Plausible (b.read i)

/-- The empty bucket has no occupied entry. -/
theorem plausible_empty : empty.Plausible := by
  intro i hi
  rw [entry_empty] at hi
  exact absurd hi (by decide)

/-- A write of a trial leaves a bucket plausible, whether it overwrites or is refused. -/
theorem Plausible.save {b : Bucket} (h : b.Plausible) {generation : UInt8}
    (hg : generation.toNat % 8 = 0) {trial : Stress.Trial} (ht : trial.InRange) (p : Replacement)
    (key : UInt16) (slot : Slot) : (b.save p key generation trial.record slot).Plausible := by
  intro i hi
  have hdepth : ((b.save p key generation trial.record slot).read i).depth.Storable :=
    Entry.storable_depth hi
  refine ⟨hdepth, ?_⟩
  by_cases his : i = slot
  · subst his
    by_cases hy : (b.entry i).Yields p key generation trial.record
    · rw [read_save_of_yields hg hy, Score.ofInt16_toInt16 ht.fits_value]
      exact ⟨ht.bound, ht.value⟩
    · -- The entry was occupied before, so its bound and its value are plausible.
      rw [entry_save_self, Entry.occupied_save_iff] at hi
      rw [read_save_of_not_yields hy]
      exact (h i (hi.resolve_left hy)).2
  · rw [entry_save_of_ne p key generation trial.record b his] at hi
    rw [read_save_of_ne p key generation trial.record b his]
    exact (h i hi).2

end Bucket

/-! ## Tables -/

namespace Table

/-- An intact table in which every occupied entry holds a record that some trial can have written. -/
structure Uncorrupted (params : Replacement) (t : Table) : Prop extends t.Intact params where
  /-- Every bucket is plausible. -/
  records : ∀ (n : Nat) (b : Bucket), t.buckets[n]? = some b → b.Plausible

variable {params : Replacement} {t : Table}

/-- A new search leaves the records. -/
theorem Uncorrupted.newSearch (h : t.Uncorrupted params) : t.newSearch.Uncorrupted params :=
  ⟨h.toIntact.newSearch, h.records⟩

/-- A probe that finds a record finds a plausible one, also under a key that was never written. -/
theorem Uncorrupted.plausible_of_probe (h : t.Uncorrupted params) {key : UInt64} {p : Probe}
    (hp : t.probe key = .ok p) (hf : p.found = true) : Stress.Plausible p.record := by
  obtain ⟨b, hb, -, hl⟩ := (probe_eq_ok_iff _ _ _).mp hp
  obtain ⟨ho, -, hread⟩ := Bucket.of_found_lookup (by rw [hl]; exact hf)
  rw [hl] at ho hread
  rw [show p.record = b.read p.writer.slot from hread]
  exact h.records _ b hb _ ho

/-- A write of a trial through a writer to the table returns, and keeps the table uncorrupted. -/
theorem Uncorrupted.exists_write (h : t.Uncorrupted params) {trial : Stress.Trial}
    (ht : trial.InRange) {w : Writer} {b : Bucket} (hb : t.buckets[w.bucket]? = some b) :
    ∃ t', t.write .off w trial.key t.generation trial.record = (t', none) ∧
      t'.Uncorrupted params ∧ t.SameFrame t' := by
  have hframe := t.sameFrame_setBucket w.bucket
    (b.save t.params (entryKey trial.key) t.generation trial.record w.slot)
  refine ⟨_, write_eq_none hb trial.key (.inl rfl), ⟨?_, fun n c hc => ?_⟩, hframe⟩
  · exact h.toIntact.of_sameFrame hframe
  · rcases getElem?_setBucket_cases hb hc with ⟨-, rfl⟩ | ⟨-, hc⟩
    · exact (h.records _ b hb).save h.generation ht _ _ _
    · exact h.records n c hc

end Table

namespace Stress

variable {params : Replacement} {t t' t'' : Table} {tally tally' tally'' : Tally} {n m : Nat}

/-! ## Trials -/

/-- `Tallied params n t tally t' tally'`: what `n` trials make of the table `t` and the tally `tally` of
those before them. -/
structure Tallied (params : Replacement) (n : Nat) (t : Table) (tally : Tally) (t' : Table)
    (tally' : Tally) : Prop where
  /-- The table is uncorrupted. -/
  table : t'.Uncorrupted params
  /-- At most its records have changed. -/
  frame : t.SameFrame t'
  /-- No more hits are corrupt. -/
  corrupt : tally'.corrupt = tally.corrupt
  /-- Each trial has added at most one hit. -/
  hits : tally'.hits ≤ tally.hits + n

theorem Tallied.zero (h : t.Uncorrupted params) (tally : Tally) :
    Tallied params 0 t tally t tally := ⟨h, .refl t, rfl, Nat.le_refl _⟩

theorem Tallied.trans (h : Tallied params n t tally t' tally')
    (h' : Tallied params m t' tally' t'' tally'') :
    Tallied params (n + m) t tally t'' tally'' := by
  refine ⟨h'.table, h.frame.trans h'.frame, h'.corrupt.trans h.corrupt, ?_⟩
  have hhits := h.hits
  have hhits' := h'.hits
  omega

/-- A hit on a plausible record counts as a hit and not as corrupt. -/
theorem Tally.count_of_plausible {p : Probe} (h : p.found = true → Plausible p.record)
    (tally : Tally) :
    (tally.count p).corrupt = tally.corrupt ∧ (tally.count p).hits ≤ tally.hits + 1 := by
  unfold Tally.count
  split
  · rename_i hf
    rw [if_pos (h hf)]
    exact ⟨rfl, Nat.le_refl _⟩
  · exact ⟨rfl, Nat.le_succ _⟩

/-- A trial on an uncorrupted table returns. -/
theorem exists_attempt (h : t.Uncorrupted params) {trial : Trial} (ht : trial.InRange)
    (tally : Tally) :
    ∃ t' tally', attempt t.generation trial t tally = .ok (t', tally') ∧
      Tallied params 1 t tally t' tally' := by
  obtain ⟨p, hp⟩ := h.exists_probe trial.key
  obtain ⟨b, hb, hbucket, -⟩ := (Table.probe_eq_ok_iff _ _ _).mp hp
  obtain ⟨t', hw, htable, hframe⟩ := h.exists_write ht (hbucket ▸ hb)
  obtain ⟨hcorrupt, hhits⟩ := Tally.count_of_plausible (h.plausible_of_probe hp) tally
  have hprefetch : t.prefetch trial.key = .ok () := by
    obtain ⟨c, hc⟩ := h.exists_bucketOf trial.key
    unfold Table.prefetch
    rw [hc]
    rfl
  refine ⟨t', tally.count p, ?_, htable, hframe, hcorrupt, hhits⟩
  simp only [attempt, hprefetch, hp, hw]

section Sources

variable {σ : Type} {next : σ → Trial × σ} (hnext : ∀ s, (next s).1.InRange)

include hnext

/-- Trials on an uncorrupted table return. -/
theorem exists_trials (h : t.Uncorrupted params) (n : Nat) (s : σ) (tally : Tally) :
    ∃ t' tally', trials next t.generation n s t tally = .ok (t', tally') ∧
      Tallied params n t tally t' tally' := by
  induction n generalizing s t tally with
  | zero => exact ⟨t, tally, rfl, .zero h tally⟩
  | succ n ih =>
    obtain ⟨t₁, tally₁, hfirst, htallied⟩ := exists_attempt h (hnext s) tally
    obtain ⟨t₂, tally₂, hrest, htallied'⟩ := ih htallied.table (next s).2 tally₁
    refine ⟨t₂, tally₂, ?_, ?_⟩
    · rw [htallied.frame.generation_eq] at hrest
      simp only [trials, hfirst]
      exact hrest
    · rw [Nat.add_comm]
      exact htallied.trans htallied'

/-- The trials of several threads on an uncorrupted table return. -/
theorem exists_threadTrials (h : t.Uncorrupted params) (source : Nat → σ)
    (probes thread threads : Nat) (tally : Tally) :
    ∃ t' tally', threadTrials next source t.generation probes thread threads t tally =
      .ok (t', tally') ∧ Tallied params (threads * probes) t tally t' tally' := by
  induction threads generalizing thread t tally with
  | zero =>
    rw [Nat.zero_mul]
    exact ⟨t, tally, rfl, .zero h tally⟩
  | succ threads ih =>
    obtain ⟨t₁, tally₁, hfirst, htallied⟩ := exists_trials hnext h probes (source thread) tally
    obtain ⟨t₂, tally₂, hrest, htallied'⟩ := ih htallied.table (thread + 1) tally₁
    refine ⟨t₂, tally₂, ?_, ?_⟩
    · rw [htallied.frame.generation_eq] at hrest
      simp only [threadTrials, hfirst]
      exact hrest
    · rw [Nat.succ_mul, Nat.add_comm]
      exact htallied.trans htallied'

end Sources

/-! ## Rounds -/

/-- What is reported of a round that finds the table in order. -/
structure Row.Clean (requested : Nat) (row : Row) : Prop where
  /-- The generation counts the rounds in steps of eight. -/
  generation : row.generation.toNat = 8 * row.round % 256
  /-- All probes were made. -/
  probes : row.probes = requested
  /-- No probe is more than one hit. -/
  hits : row.tally.hits ≤ requested
  /-- No hit was corrupt. -/
  corrupt : row.tally.corrupt = 0
  /-- The entries of the round are among those of any round. -/
  hashfull : row.hashfull ≤ row.hashfullAll
  /-- The occupancy is a share per thousand. -/
  hashfullAll : row.hashfullAll ≤ 1000

/-- Makes that many rounds, after a number of them, with a source for each round and thread. -/
def rounds {σ : Type} (next : σ → Trial × σ) (source : Nat → Nat → σ) (threads probes number : Nat) :
    Nat → Table → Except Fault (Table × List Row)
  | 0, t => .ok (t, [])
  | count + 1, t =>
    match round next (source number) threads probes (number + 1) t with
    | .error fault => .error fault
    | .ok (t, row) =>
      match rounds next source threads probes (number + 1) count t with
      | .error fault => .error fault
      | .ok (t, rows) => .ok (t, row :: rows)

section Sources

variable {σ : Type} {next : σ → Trial × σ} (hnext : ∀ s, (next s).1.InRange)

include hnext

/-- A round after a number of them returns, and finds an uncorrupted table in order. -/
theorem exists_round (h : t.Uncorrupted params) (source : Nat → σ) (threads probes : Nat)
    {number : Nat} (hg : t.generation.toNat = 8 * number % 256) :
    ∃ t' row, round next source threads probes (number + 1) t = .ok (t', row) ∧
      t'.Uncorrupted params ∧ t'.bucketCount = t.bucketCount ∧
      t'.generation.toNat = 8 * (number + 1) % 256 ∧ row.round = number + 1 ∧
      row.Clean (threads * probes) := by
  obtain ⟨t', tally, hmade, htallied⟩ :=
    exists_threadTrials hnext h.newSearch source probes 0 threads Tally.zero
  have hgeneration : t'.generation.toNat = 8 * (number + 1) % 256 := by
    rw [htallied.frame.generation_eq, t.toNat_generation_newSearch, hg]
    omega
  obtain ⟨recent, all, hrecent, hall, hle, hmax⟩ :=
    htallied.table.exists_hashfull_le (show (none : Option UInt8).getD 0 ≤ (some anyAge).getD 0 by
      decide)
  have hhits := htallied.hits
  refine ⟨t', ⟨number + 1, t.newSearch.generation, threads * probes, tally, recent, all⟩, ?_,
    htallied.table, htallied.frame.bucketCount_eq, hgeneration, rfl, ?_, rfl, ?_, htallied.corrupt,
    hle, hmax⟩
  · simp only [round, hmade, hrecent, hall, bind, Except.bind, pure, Except.pure]
  · rw [← hgeneration, htallied.frame.generation_eq]
  · exact Nat.le_trans hhits (Nat.le_of_eq (Nat.zero_add _))

/-- Rounds return, one row for each, and find an uncorrupted table in order. -/
theorem exists_rounds (h : t.Uncorrupted params) (source : Nat → Nat → σ)
    (threads probes count : Nat) {number : Nat} (hg : t.generation.toNat = 8 * number % 256) :
    ∃ t' rows, rounds next source threads probes number count t = .ok (t', rows) ∧
      t'.Uncorrupted params ∧ t'.bucketCount = t.bucketCount ∧
      rows.map Row.round = List.range' (number + 1) count ∧
      ∀ row ∈ rows, row.Clean (threads * probes) := by
  induction count generalizing number t with
  | zero => exact ⟨t, [], rfl, h, rfl, rfl, by simp⟩
  | succ count ih =>
    obtain ⟨t₁, row, hfirst, htable, hcount, hgeneration, hnumber, hclean⟩ :=
      exists_round hnext h (source number) threads probes hg
    obtain ⟨t₂, rows, hrest, htable', hcount', hnumbers, hcleans⟩ := ih htable hgeneration
    refine ⟨t₂, row :: rows, ?_, htable', hcount'.trans hcount, ?_, ?_⟩
    · simp only [rounds, hfirst, hrest]
    · rw [List.map_cons, hnumber, hnumbers, List.range'_succ]
    · intro row' hrow'
      rcases List.mem_cons.mp hrow' with rfl | hrow'
      · exact hclean
      · exact hcleans row' hrow'

end Sources

end Stress

end Transposition
