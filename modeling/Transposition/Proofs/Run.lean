import Transposition.Proofs.Blank

/-!
# Runs of a table

A run is what happens to a table between two clears. It is a sequence of new searches, of probes, and
of writes through writers that earlier probes have returned: in any order, with any writer kept for
any time, under any key, and with any generation passed. `Run` relates the table at the end to the
history, which keeps every probe with its answer and every write with the verdict of the entry that
it met. A write that a check stops ends the run, so the writes of a history are those that returned.

`FreshRun` is the special case in which every write goes through the writer of a probe made right
before it, for the same key.

What a run keeps true of one bucket is stated as an `Invariant`: a property of the bucket and the
history so far that each kind of step keeps. `Run.holds` is the induction on the run, made once.
-/

namespace Transposition

/-- A write, as the history of a run keeps it. -/
structure Write where
  /-- The key whose probe returned the writer. -/
  probed : UInt64
  /-- The writer. -/
  writer : Writer
  /-- The key under which the record was written. -/
  key : UInt64
  /-- The generation that was passed. -/
  generation : UInt8
  /-- The record. -/
  record : Record
  /-- How the entry that the writer points at answered. -/
  verdict : Verdict
  deriving DecidableEq, Repr

/-- What happens in a run. -/
inductive Event
  /-- A search was started. -/
  | searched
  /-- A key was looked up; the writer of the answer can be kept. -/
  | probed (key : UInt64) (answer : Probe)
  /-- A record was written. -/
  | wrote (write : Write)
  deriving DecidableEq, Repr

/-- The events of a run, the newest first. -/
abbrev History := List Event

/-- `Run checks start t h`: the events `h` lead from the table `start` to the table `t`. -/
inductive Run (checks : Checks) (start : Table) : Table → History → Prop
  | start : Run checks start start []
  | search {t : Table} {h : History} (run : Run checks start t h) :
      Run checks start t.newSearch (.searched :: h)
  | probe {t : Table} {h : History} {key : UInt64} {p : Probe} (run : Run checks start t h)
      (answer : t.probe key = .ok p) : Run checks start t (.probed key p :: h)
  | write {t t' : Table} {h : History} {w : Write} {p : Probe} {b : Bucket}
      (run : Run checks start t h) (held : .probed w.probed p ∈ h) (through : w.writer = p.writer)
      (bucket : t.buckets[w.writer.bucket]? = some b)
      (verdict : w.verdict = (b.entry w.writer.slot).verdict t.params (entryKey w.key) w.generation
        w.record)
      (wrote : t.write checks w.writer w.key w.generation w.record = (t', none)) :
      Run checks start t' (.wrote w :: h)

/-- `FreshRun checks start t`: new searches, and writes through the writer of a probe of the same key
made right before, lead from the table `start` to the table `t`. -/
inductive FreshRun (checks : Checks) (start : Table) : Table → Prop
  | start : FreshRun checks start start
  | search {t : Table} (run : FreshRun checks start t) : FreshRun checks start t.newSearch
  | write {t t' : Table} {key : UInt64} {p : Probe} {generation : UInt8} {r : Record}
      (run : FreshRun checks start t) (answer : t.probe key = .ok p)
      (wrote : t.write checks p.writer key generation r = (t', none)) : FreshRun checks start t'

/-- The number of searches that were started in a history. -/
def History.searches (h : History) : Nat := h.count .searched

@[simp]
theorem History.searches_searched (h : History) :
    History.searches (.searched :: h) = h.searches + 1 := List.count_cons_self

@[simp]
theorem History.searches_probed (key : UInt64) (p : Probe) (h : History) :
    History.searches (.probed key p :: h) = h.searches := List.count_cons_of_ne (by simp)

@[simp]
theorem History.searches_wrote (w : Write) (h : History) :
    History.searches (.wrote w :: h) = h.searches := List.count_cons_of_ne (by simp)

variable {checks : Checks} {start t : Table} {h : History}

/-- A run with fresh writers is a run. -/
theorem FreshRun.exists_run (hr : FreshRun checks start t) : ∃ h, Run checks start t h := by
  induction hr with
  | start => exact ⟨[], .start⟩
  | search _ ih =>
    obtain ⟨h, hrun⟩ := ih
    exact ⟨_, .search hrun⟩
  | @write t t' key p generation r _ hp hw ih =>
    obtain ⟨h, hrun⟩ := ih
    obtain ⟨b, hb, -, -⟩ := (Table.write_eq_none_iff _ _ _ _ _ _ _).mp hw
    -- The history gets the probe first, and the write is through the writer of that probe.
    have hheld : Event.probed key p ∈ Event.probed key p :: h := List.mem_cons_self
    let v := (b.entry p.writer.slot).verdict t.params (entryKey key) generation r
    let w : Write := ⟨key, p.writer, key, generation, r, v⟩
    have hrun' : Run checks start t' (.wrote w :: .probed key p :: h) :=
      .write (.probe hrun hp) hheld rfl hb rfl hw
    exact ⟨_, hrun'⟩

/-- A write that returns leaves its bucket saved and nothing else changed. -/
theorem Table.eq_of_write {w : Writer} {key : UInt64} {generation : UInt8} {r : Record} {t t' : Table}
    {b : Bucket} (hb : t.buckets[w.bucket]? = some b)
    (hw : t.write checks w key generation r = (t', none)) :
    t' = t.setBucket w.bucket (b.save t.params (entryKey key) generation r w.slot) := by
  obtain ⟨b', hb', -, ht'⟩ := (write_eq_none_iff _ _ _ _ _ _ _).mp hw
  rw [hb, Option.some.injEq] at hb'
  rw [hb']
  exact ht'

/-- A run changes neither the number of buckets nor the parameters. -/
theorem Run.frame (hr : Run checks start t h) :
    t.buckets.size = start.buckets.size ∧ t.bucketCount = start.bucketCount ∧
      t.params = start.params := by
  induction hr with
  | start => exact ⟨rfl, rfl, rfl⟩
  | search _ ih => exact ih
  | probe _ _ ih => exact ih
  | write _ _ _ hb _ hw ih =>
    obtain rfl := Table.eq_of_write hb hw
    simpa using ih

/-- A run keeps a table sound. -/
theorem Run.sound (h₀ : start.Sound) (hr : Run checks start t h) : t.Sound := by
  obtain ⟨hsize, hcount, -⟩ := hr.frame
  exact ⟨by rw [hsize, hcount, h₀.size], by rw [hcount]; exact h₀.pos⟩

/-- A new search adds 8 to the generation, which wraps. -/
theorem Table.toNat_generation_newSearch (t : Table) :
    t.newSearch.generation.toNat = (t.generation.toNat + 8) % 256 :=
  UInt8.toNat_add t.generation generationStep

/-- A new search keeps the low bits of the generation zero. -/
theorem Table.generation_newSearch (h : t.generation.toNat % 8 = 0) :
    t.newSearch.generation.toNat % 8 = 0 := by
  -- The step is 8 and the byte wraps at a multiple of 8.
  rw [t.toNat_generation_newSearch]
  omega

/-- In a run from a blank table the generation counts the searches in steps of eight, modulo the
number of bytes. -/
theorem Run.generation_eq (h₀ : start.Blank) (hr : Run checks start t h) :
    t.generation.toNat = 8 * h.searches % 256 := by
  induction hr with
  | start =>
    rw [h₀.generation]
    rfl
  | @search t h _ ih =>
    rw [t.toNat_generation_newSearch, ih, History.searches_searched]
    omega
  | probe _ _ ih => simpa using ih
  | write _ _ _ bucket _ wrote ih =>
    rw [Table.eq_of_write bucket wrote]
    simpa using ih

/-- In a run from a blank table the low bits of the generation stay zero. -/
theorem Run.generation {h : History} (h₀ : start.Blank) (hr : Run checks start t h) :
    t.generation.toNat % 8 = 0 := by
  have hg := hr.generation_eq h₀
  omega

/-- The writer of a probe points into the bucket of the key that was probed. -/
theorem Run.bucket_of_probed (hr : Run checks start t h) {key : UInt64} {p : Probe}
    (hp : .probed key p ∈ h) : p.writer.bucket = t.indexOf key := by
  induction hr with
  | start => cases hp
  | search _ ih => exact ih (by simpa using hp)
  | @probe t h key' p' hrun answer ih =>
    rcases List.mem_cons.mp hp with heq | hp
    · obtain ⟨rfl, rfl⟩ := Event.probed.inj heq
      obtain ⟨b, -, hbucket, -⟩ := (Table.probe_eq_ok_iff _ _ _).mp answer
      exact hbucket
    · exact ih hp
  | write _ _ _ hb _ hw ih =>
    obtain rfl := Table.eq_of_write hb hw
    exact ih (by simpa using hp)

/-! ## Invariants of one bucket -/

/-- The bucket that an event is about. -/
def Event.bucket? : Event → Option Nat
  | .searched => none
  | .probed _ p => some p.writer.bucket
  | .wrote w => some w.writer.bucket

/-- A property of a bucket, its number and the history that holds at the start and that every step
keeps: what happens to other buckets, a probe of this one, and a write to it through a writer that a
probe has returned. -/
structure Invariant (params : Replacement) (P : History → Nat → Bucket → Prop) : Prop where
  /-- The empty bucket has the property at the start. -/
  empty (n : Nat) : P [] n Bucket.empty
  /-- An event that is not about the bucket keeps it. -/
  elsewhere {h : History} {n : Nat} {b : Bucket} {event : Event} (hb : P h n b)
    (hne : event.bucket? ≠ some n) : P (event :: h) n b
  /-- A probe of the bucket, with the answer of its look-up, keeps it. -/
  probe {h : History} {b : Bucket} {generation : UInt8} {key : UInt64} {p : Probe}
    (hb : P h p.writer.bucket b)
    (answer : b.lookup params generation (entryKey key) = ⟨p.found, p.record, p.writer.slot⟩) :
    P (.probed key p :: h) p.writer.bucket b
  /-- A write to the bucket, with the verdict of the entry that it meets, keeps it. -/
  write {h : History} {b : Bucket} {w : Write} {p : Probe} (hb : P h w.writer.bucket b)
    (held : .probed w.probed p ∈ h) (through : w.writer = p.writer)
    (verdict : w.verdict = (b.entry w.writer.slot).verdict params (entryKey w.key) w.generation
      w.record) :
    P (.wrote w :: h) w.writer.bucket
      (b.save params (entryKey w.key) w.generation w.record w.writer.slot)

/-- An invariant holds of every bucket in every state of a run from a blank table. -/
theorem Run.holds {P : History → Nat → Bucket → Prop} (hP : Invariant start.params P)
    (h₀ : start.Blank) (hr : Run checks start t h) {n : Nat} {b : Bucket}
    (hb : t.buckets[n]? = some b) : P h n b := by
  induction hr generalizing n b with
  | start =>
    rw [h₀.empty n b hb]
    exact hP.empty n
  | search _ ih => exact hP.elsewhere (ih hb) (Option.some_ne_none n).symm
  | @probe t h key p hrun answer ih =>
    obtain ⟨c, hc, hbucket, hl⟩ := (Table.probe_eq_ok_iff _ _ _).mp answer
    rw [hrun.frame.2.2] at hl
    rw [← hbucket] at hc
    -- The table stays, but only the probed bucket is known to be the one of the look-up.
    by_cases hn : n = p.writer.bucket
    · subst hn
      rw [hc, Option.some.injEq] at hb
      subst hb
      exact hP.probe (ih hc) hl
    · exact hP.elsewhere (ih hb) fun heq => hn (Option.some.inj heq).symm
  | @write t t' h w p c hrun held through bucket verdict wrote ih =>
    obtain rfl := Table.eq_of_write bucket wrote
    rw [hrun.frame.2.2] at verdict hb
    rcases Table.getElem?_setBucket_cases bucket hb with ⟨rfl, rfl⟩ | ⟨hn, hb⟩
    · exact hP.write (ih bucket) held through verdict
    · exact hP.elsewhere (ih hb) fun heq => hn (Option.some.inj heq).symm

/-! ## Data for short runs -/

/-- A record of a search that failed high at score zero. -/
def Record.failedHigh (move : Move) (depth : Depth) : Record :=
  ⟨move, Score.zero, Score.zero, depth, .lower, false, false⟩

/-- The answer to a probe that finds nothing. -/
def Probe.miss (bucket : Nat) (slot : Slot) : Probe := ⟨false, Record.absent, ⟨bucket, slot⟩⟩

end Transposition
