import Mathlib.Algebra.Group.Nat.Defs
import Transposition.Proofs.Intact

/-!
# The life of a table

From its creation on a table answers requests of every kind, in any order, with writers kept for any
time and with clears and resizes in between, granted or refused. `Session.Reachable` are the sessions
that this leads to. Their tables are intact, and their kept writers point into them
(`Session.Intact.answer`). It follows that an unchecked table has no access to a bucket that is not
there, no division by zero and no other fault than that of a clear which its crew stops
(`Session.Intact.fault?_answer`), and that nothing of its past matters to a resize
(`Session.Reachable.resize_is_create`).
-/

namespace Transposition

/-! ## Requests -/

/-- The fault that an answer tells of. -/
def Answer.fault? : Answer → Option Fault
  | .written _ _ _ fault => fault
  | .stopped fault => some fault
  | _ => none

/-- What stops a request to a table of so many buckets of which nothing is checked, if anything does: it
asks to fill a part that the table does not have, or a crew stops the clear that it comes to. -/
def Command.fault? (memory : Memory) (size : Nat) : Command → Option Fault
  | .fill first stop _ _ _ => Fault.ofPart? first (stop.getD size) size
  | .clear crew => crew.fault?
  | .resize bytes crew =>
    match memory.reserve (bucketsFor bytes) with
    | .ok _ => crew.fault?
    | .error _ => none
  | _ => none

namespace Session

variable {checks : Checks} {params : Replacement} {s : Session}

/-- What holds of a session with a created table, at any time. -/
structure Intact (params : Replacement) (s : Session) : Prop where
  /-- The table is intact. -/
  table : s.table.Intact params
  /-- A kept writer, under whichever name, points to a bucket of the table. -/
  writers : ∀ kept ∈ s.writers, kept.2.bucket < s.table.bucketCount

/-- A session in which no writer is kept yet. -/
theorem intact_ofTable {t : Table} (h : t.Intact params) : (ofTable t).Intact params :=
  ⟨h, fun _ hkept => by cases hkept⟩

/-- What happens to the contents of the buckets leaves the kept writers what they are. -/
theorem Intact.of_sameFrame (h : s.Intact params) {t : Table} (hf : s.table.SameFrame t) :
    Intact params ⟨t, s.writers⟩ := by
  refine ⟨h.table.of_sameFrame hf, ?_⟩
  obtain ⟨_, -, rfl⟩ := hf
  exact h.writers

/-- A writer that is kept under a name points to a bucket of the table. -/
theorem Intact.bucket_lt_of_writer? (h : s.Intact params) {name : String} {w : Writer}
    (hw : s.writer? name = some w) : w.bucket < s.table.bucketCount := by
  obtain ⟨before, after, hsplit, -⟩ := List.lookup_eq_some_iff.mp hw
  exact h.writers (name, w) (by simp [hsplit])

/-- The writer of a probe points to a bucket of the table. -/
theorem Intact.bucket_lt_of_probe (h : s.Intact params) {key : UInt64} {p : Probe}
    (hp : s.table.probe key = .ok p) : p.writer.bucket < s.table.bucketCount := by
  obtain ⟨b, -, hbucket, -⟩ := (Table.probe_eq_ok_iff _ _ _).mp hp
  rw [hbucket]
  exact h.table.indexOf_lt key

/-- A write through a writer changes only what the buckets hold. -/
theorem fst_writeVia (checks : Checks) (w : Writer) (key : UInt64) (generation : Option UInt8)
    (r : Record) (s : Session) :
    (s.writeVia checks w key generation r).1 =
      ⟨(s.table.write checks w key (generation.getD s.table.generation) r).1, s.writers⟩ := by
  unfold writeVia
  dsimp only
  split <;> rfl

/-- The answer to a write tells of the fault that stopped it. -/
theorem Intact.fault?_writeVia (h : s.Intact params) {w : Writer} (hw : w.bucket < s.table.bucketCount)
    (key : UInt64) (generation : Option UInt8) (r : Record) :
    (s.writeVia checks w key generation r).2.fault? =
      (s.table.write checks w key (generation.getD s.table.generation) r).2 := by
  obtain ⟨buckets, hsize, hframe⟩ :=
    s.table.sameFrame_write checks w key (generation.getD s.table.generation) r
  have hlt : w.bucket <
      (s.table.write checks w key (generation.getD s.table.generation) r).1.buckets.size := by
    rw [hframe]
    show w.bucket < buckets.size
    rwa [hsize, h.table.size]
  obtain ⟨b, hb⟩ := Table.exists_bucketAt hlt
  unfold writeVia
  simp only [hb]
  rfl

/-! ## One request -/

/-- Every request leaves an intact session intact, with checks or without, whether it is answered or
stopped, and whatever the allocator says. -/
theorem Intact.answer (h : s.Intact params) (checks : Checks) (memory : Memory) (command : Command) :
    (s.answer checks memory command).1.Intact params := by
  cases command with
  | probe key keep =>
    obtain ⟨p, hp⟩ := h.table.exists_probe key
    -- Nothing changes but that the writer may be kept.
    cases keep with
    | none => simpa only [Session.answer, hp] using h
    | some name =>
      simp only [Session.answer, hp]
      refine ⟨h.table, fun kept hkept => ?_⟩
      rcases List.mem_cons.mp hkept with rfl | hkept
      · exact h.bucket_lt_of_probe hp
      · exact h.writers kept hkept
  | write key r generation via =>
    -- Even a write that a check stops has changed no more than its bucket.
    cases via with
    | none =>
      obtain ⟨p, hp⟩ := h.table.exists_probe key
      simp only [Session.answer, hp, fst_writeVia]
      exact h.of_sameFrame (s.table.sameFrame_write _ _ _ _ _)
    | some name =>
      cases hw : s.writer? name with
      | none => simpa only [Session.answer, hw] using h
      | some w =>
        simp only [Session.answer, hw, fst_writeVia]
        exact h.of_sameFrame (s.table.sameFrame_write _ _ _ _ _)
  | newSearch times =>
    obtain ⟨htable, hcount⟩ := h.table.repeat_newSearch times
    exact ⟨htable, fun kept hkept => Nat.lt_of_lt_of_eq (h.writers kept hkept) hcount.symm⟩
  | hashfull maxAges =>
    obtain ⟨estimates, he⟩ := h.table.exists_hashfull maxAges
    simpa only [Session.answer, he] using h
  | prefetch key =>
    obtain ⟨b, hb⟩ := h.table.exists_bucketOf key
    simpa only [Session.answer, Table.prefetch, hb, Except.map] using h
  | bucket key =>
    obtain ⟨b, hb⟩ := h.table.exists_bucketOf key
    simpa only [Session.answer, hb] using h
  | fill first stop key r generation =>
    simp only [Session.answer]
    split
    · exact h
    · have hframe := s.table.sameFrame_fill checks key (generation.getD s.table.generation) r first
        (stop.getD s.table.bucketCount - first)
      split
      · rename_i heq
        rw [heq] at hframe
        exact h.of_sameFrame hframe
      · rename_i heq
        rw [heq] at hframe
        exact h.of_sameFrame hframe
  | census => exact h
  | dump => exact h
  | info => exact h
  | clear crew =>
    have hcleared := intact_ofTable (h.table.clearBy emptyRanges crew.size crew.runs)
    simp only [Session.answer]
    split
    · exact hcleared
    · exact hcleared
  | resize bytes crew =>
    have hresized := intact_ofTable (h.table.resize memory crew bytes)
    simp only [Session.answer]
    split
    · exact hresized
    · exact hresized

/-- Without checks a request is stopped only if it names a part of the table that is not there, or by
its crew. -/
theorem Intact.fault?_answer (h : s.Intact params) (memory : Memory) (command : Command) :
    (s.answer .off memory command).2.fault? = command.fault? memory s.table.bucketCount := by
  cases command with
  | probe key keep =>
    obtain ⟨p, hp⟩ := h.table.exists_probe key
    cases keep <;> simp only [Session.answer, hp] <;> rfl
  | write key r generation via =>
    cases via with
    | none =>
      obtain ⟨p, hp⟩ := h.table.exists_probe key
      have hlt := h.bucket_lt_of_probe hp
      simp only [Session.answer, hp, h.fault?_writeVia hlt]
      exact Table.fault_write_off (by rwa [h.table.size]) _ _ _
    | some name =>
      cases hw : s.writer? name with
      | none =>
        simp only [Session.answer, hw]
        rfl
      | some w =>
        have hlt := h.bucket_lt_of_writer? hw
        simp only [Session.answer, hw, h.fault?_writeVia hlt]
        exact Table.fault_write_off (by rwa [h.table.size]) _ _ _
  | newSearch times => rfl
  | hashfull maxAges =>
    obtain ⟨estimates, he⟩ := h.table.exists_hashfull maxAges
    simp only [Session.answer, he]
    rfl
  | prefetch key =>
    obtain ⟨b, hb⟩ := h.table.exists_bucketOf key
    simp only [Session.answer, Table.prefetch, hb]
    rfl
  | bucket key =>
    obtain ⟨b, hb⟩ := h.table.exists_bucketOf key
    simp only [Session.answer, hb]
    rfl
  | fill first stop key r generation =>
    simp only [Session.answer, Command.fault?]
    split
    · rename_i hpart
      rw [hpart]
      rfl
    · rename_i hpart
      rw [hpart]
      -- The part lies in the table, so all of it can be written.
      obtain ⟨hstart, hstop⟩ := Fault.ofPart?_eq_none_iff.mp hpart
      have hfits : first + (stop.getD s.table.bucketCount - first) ≤ s.table.buckets.size := by
        rw [h.table.size]
        omega
      have hnone := Table.fault_fill_off key (generation.getD s.table.generation) r hfits
      split
      · rename_i heq
        rw [heq] at hnone
        cases hnone
      · rfl
  | census => rfl
  | dump => rfl
  | info => rfl
  | clear crew =>
    simp only [Session.answer, Command.fault?, Table.fault_clearObserved]
    cases crew.fault? <;> rfl
  | resize bytes crew =>
    simp only [Session.answer, Command.fault?, Table.resize_eq]
    cases memory.reserve (bucketsFor bytes) with
    | error e => rfl
    | ok reserved => cases crew.fault? <;> rfl

/-! ## Any number of requests -/

/-- `Reachable checks start s`: requests lead from the session `start` to the session `s`. The
allocator can answer each of them in its own way. -/
inductive Reachable (checks : Checks) (start : Session) : Session → Prop
  | start : Reachable checks start start
  | answer {s : Session} (reached : Reachable checks start s) (memory : Memory) (command : Command) :
      Reachable checks start (s.answer checks memory command).1

/-- Every session that can be reached from an intact one is intact. -/
theorem Reachable.intact {start : Session} (h₀ : start.Intact params)
    (hr : Reachable checks start s) : s.Intact params := by
  induction hr with
  | start => exact h₀
  | answer _ memory command ih => exact ih.answer checks memory command

/-- The sessions on the way through a sequence of requests can be reached. -/
theorem Reachable.answerAll {start : Session} (hr : Reachable checks start s) (memory : Memory)
    (commands : List Command) : Reachable checks start (s.answerAll checks memory commands).1 := by
  induction commands generalizing s with
  | nil => exact hr
  | cons command rest ih => exact ih (hr.answer memory command)

/-- Every session with a created table is intact. -/
theorem Reachable.intact_of_create {memory : Memory} {crew : Crew} {bytes : UInt64} {c : Created}
    (created : Table.create memory crew params bytes = .ok c)
    (hr : Reachable checks (ofTable c.table) s) : s.Intact params :=
  hr.intact (intact_ofTable (Table.intact_of_create created))

/-- Whatever is asked of a created table, with checks or without, its number of buckets stays the
length of their array, which is at least one and fits what the buckets lie in, the low bits of the
generation stay zero, and the parameters stay those that were checked. So every key has a bucket, the
high word of its product with their number; kept writers point to entries of the table; and the
estimate of the occupancy does not divide by zero. This holds also after clears that were stopped.

Without checks no request is stopped, unless it asks to fill a part of the table that is not there, or it
comes to a clear by a crew with more workers than can be marked or with `2 ^ 31` that leave their task
undone. -/
theorem Reachable.sizes_agree_and_only_crews_stop {memory : Memory} {crew : Crew} {bytes : UInt64}
    {t : Table} {notices : List Notice}
    (created : Table.create memory crew params bytes = .ok ⟨t, notices, none⟩)
    (hr : Reachable checks (ofTable t) s) :
    (s.table.buckets.size = s.table.bucketCount ∧ 1 ≤ s.table.bucketCount ∧
      s.table.bucketCount * bucketBytes ≤ s.table.reservedBytes ∧
      s.table.generation.toNat % 8 = 0 ∧ s.table.params = params ∧ params.Valid) ∧
    (∀ key, bucketIndex key s.table.bucketCount < s.table.buckets.size ∧
      bucketIndex key s.table.bucketCount =
        (mulHigh key (UInt64.ofNat s.table.bucketCount)).toNat) ∧
    (∀ kept ∈ s.writers, kept.2.bucket < s.table.buckets.size ∧ kept.2.slot.val < entryCount) ∧
    min Table.hashfullSample s.table.bucketCount * entryCount ≠ 0 ∧
    (checks = .off → ∀ (memory : Memory) (command : Command),
      (s.answer checks memory command).2.fault? = command.fault? memory s.table.bucketCount) ∧
    ∀ crew : Crew, crew.fault? = none ↔
      crew.size ≤ marksLimit ∧ crew.handling.countP Handling.leaves < 2^31 := by
  have h := Reachable.intact_of_create created hr
  have hsize := h.table.size
  refine ⟨⟨hsize, h.table.pos, h.table.held, h.table.generation, h.table.params,
    Table.valid_of_create created⟩, fun key => ⟨?_, h.table.indexOf_eq key⟩,
    fun kept hkept => ⟨?_, kept.2.slot.isLt⟩, h.table.sample_ne_zero, ?_,
    fun _ => clearFault?_eq_none_iff⟩
  · rw [hsize]
    exact h.table.indexOf_lt key
  · rw [hsize]
    exact h.writers kept hkept
  · rintro rfl memory command
    exact h.fault?_answer memory command

/-- Two buckets, a writer that is kept over 33 searches, a resize that cannot be granted, and then one
to three buckets whose only worker leaves its task undone. -/
theorem sizes_agree_after_failed_resize :
    ∃ (t : Table) (notices : List Notice) (s : Session),
      Table.create (.below (2 ^ 22)) .single .default 64 = .ok ⟨t, notices, none⟩ ∧
      Reachable .off (ofTable t) s ∧ s.table.bucketCount = 3 ∧ s.writers = [("last", ⟨2, 0⟩)] ∧
      s.table.buckets.size = 3 ∧ s.table.params = .default ∧
      bucketIndex 0xFFFFFFFFFFFFFFFF 3 < s.table.buckets.size ∧
      (s.answer .off (.below 0) (.write 9 Record.absent none (some "last"))).2.fault? = none ∧
      (s.answer .off (.below 0) (.clear (.plan [.drop, .reject]))).2.fault? = none := by
  let commands : List Command :=
    [.probe 7 (some "first"), .newSearch 33, .write 9 (.failedHigh Move.none 3) none (some "first"),
      .hashfull [none, some 255], .resize 0x8000000000000000 .single,
      .write 5 (.failedHigh Move.none 3) none none, .resize 96 (.plan [.reject]),
      .probe 0xFFFFFFFFFFFFFFFF (some "last")]
  have created : Table.create (.below (2 ^ 22)) .single .default 64 =
      .ok ⟨Table.laidOut .default 2 largePage, _, none⟩ := rfl
  have hr : Reachable .off (ofTable (Table.laidOut .default 2 largePage))
      ((ofTable (Table.laidOut .default 2 largePage)).answerAll .off (.below (2 ^ 22)) commands).1 :=
    Reachable.start.answerAll _ commands
  have hcount : ((ofTable (Table.laidOut .default 2 largePage)).answerAll .off (.below (2 ^ 22))
      commands).1.table.bucketCount = 3 := rfl
  obtain ⟨⟨hsize, -, -, -, hparams, -⟩, hindex, -, -, hfault, hcrew⟩ :=
    hr.sizes_agree_and_only_crews_stop created
  rw [hcount] at hsize
  refine ⟨_, _, _, created, hr, hcount, rfl, hsize, hparams, (hindex _).1, hfault rfl _ _, ?_⟩
  rw [hfault rfl]
  exact (hcrew _).mpr ⟨by decide, by decide⟩

/-- Not every request to a created table is answered: a clear by `2 ^ 31 + 1` workers that reject their
task is stopped when the caller cannot count their stripes. -/
theorem exists_stopped_clear :
    ∃ (t : Table) (notices : List Notice) (s : Session),
      Table.create (.below (2 ^ 22)) .single .default 64 = .ok ⟨t, notices, none⟩ ∧
      Reachable .off (ofTable t) s ∧
      (s.answer .off (.below (2 ^ 22)) (.clear (.plan (List.replicate (2^31 + 1) .reject)))).2.fault? =
        some .addOverflow := by
  have created : Table.create (.below (2 ^ 22)) .single .default 64 =
      .ok ⟨Table.laidOut .default 2 largePage, _, none⟩ := rfl
  have hr : Reachable .off (ofTable (Table.laidOut .default 2 largePage))
      (ofTable (Table.laidOut .default 2 largePage)) := .start
  have h := Reachable.intact_of_create created hr
  refine ⟨_, _, _, created, hr, ?_⟩
  rw [h.fault?_answer]
  exact Crew.fault?_of_rejected (by decide) (by decide)

/-! ## Resizes at any time -/

/-- However often the table was used, cleared and resized before, a resize gets its block exactly if a
create with the same size and the parameters of the table does, and then gives the created table,
whichever crews the two have. With the same crew it is stopped exactly where the create is, so it
succeeds exactly if the create does.

Where they fail, both report the same error, and the resize leaves the table of a single bucket. From
there everything goes on: without checks a request is stopped only if it asks to fill a part that is not
there, or by a crew that stops every clear; and every later resize again gives what the create does. -/
theorem Reachable.resize_is_create {memory₀ : Memory} {crew₀ : Crew} {bytes₀ : UInt64} {t : Table}
    {notices : List Notice}
    (created : Table.create memory₀ crew₀ params bytes₀ = .ok ⟨t, notices, none⟩)
    (hr : Reachable checks (ofTable t) s) (memory : Memory) (crew crew' : Crew) (bytes : UInt64) :
    s.table.params = params ∧
    (s.table.resize memory crew bytes).outcome =
      (Table.create memory crew' params bytes).map (fun _ => ()) ∧
    ((s.table.resize memory crew bytes).outcome = .ok () ∧
        (s.table.resize memory crew bytes).fault = none ↔
      ∃ fresh notices', Table.create memory crew params bytes = .ok ⟨fresh, notices', none⟩) ∧
    (∀ c, Table.create memory crew' params bytes = .ok c →
      (s.table.resize memory crew bytes).table = c.table ∧
      (s.table.resize memory crew bytes).fault = crew.fault? ∧ c.fault = crew'.fault? ∧
      c.table.bucketCount = bucketsFor bytes ∧
      c.table.buckets = Array.replicate (bucketsFor bytes) Bucket.empty ∧
      c.table.generation = 0 ∧ c.table.params = params ∧ c.table.largePages = true ∧
      c.table.reservedBytes = roundUp (bucketsFor bytes * bucketBytes) largePage) ∧
    (∀ e, Table.create memory crew' params bytes = .error e →
      (s.table.resize memory crew bytes).fault = none ∧
      (s.table.resize memory crew bytes).table = ⟨.single, #[Bucket.empty], 1, 0, params⟩ ∧
      (s.table.resize memory crew bytes).table.largePages = false ∧
      ∀ s', Reachable .off (ofTable (s.table.resize memory crew bytes).table) s' →
        (∀ (memory' : Memory) (command : Command),
          (s'.answer .off memory' command).2.fault? =
            command.fault? memory' s'.table.bucketCount) ∧
        ∀ (memory' : Memory) (crew₁ crew₂ : Crew) (bytes' : UInt64) (c : Created),
          Table.create memory' crew₂ params bytes' = .ok c →
            (s'.table.resize memory' crew₁ bytes').outcome = .ok () ∧
            (s'.table.resize memory' crew₁ bytes').fault = crew₁.fault? ∧
            (s'.table.resize memory' crew₁ bytes').table = c.table) := by
  have hparams := (Reachable.intact_of_create created hr).table.params
  have hv := Table.valid_of_create created
  have hresize (crew' : Crew) :=
    Table.resize_eq_create (t := s.table) (hparams ▸ hv) memory crew crew' bytes
  rw [hparams] at hresize
  refine ⟨hparams, ?_, ?_, fun c hc => ?_, fun e he => ?_⟩
  · rw [hresize crew']
    cases Table.create memory crew' params bytes <;> rfl
  · -- The create is stopped by the crew exactly if the resize is.
    rw [hresize crew]
    cases hc : Table.create memory crew params bytes with
    | error e => simp
    | ok c =>
      obtain ⟨fresh, notices', fault⟩ := c
      have hfault : fault = crew.fault? := (Table.eq_laidOut_of_create hc).1
      simp [hfault]
  · obtain ⟨hfault, reserved, hreserve, hlaid⟩ := Table.eq_laidOut_of_create hc
    obtain ⟨-, -, hreserved, -⟩ := (memory.reserve_eq_ok_iff _ _).mp hreserve
    rw [hresize crew', hc]
    subst hreserved
    refine ⟨rfl, rfl, hfault, ?_⟩
    rw [hlaid]
    exact ⟨rfl, rfl, rfl, rfl, rfl, rfl⟩
  · rw [hresize crew', he]
    refine ⟨rfl, rfl, rfl, fun s' hr' => ?_⟩
    -- The table of a single bucket is intact, so what holds of created tables holds from it on.
    have h' := hr'.intact (intact_ofTable (Table.intact_single params))
    refine ⟨h'.fault?_answer, fun memory' crew₁ crew₂ bytes' c hc => ?_⟩
    rw [← h'.table.params] at hv hc
    rw [Table.resize_eq_create hv memory' crew₁ crew₂, hc]
    exact ⟨rfl, rfl, rfl⟩

/-- A used table of two buckets whose resize is refused, as the create of that size is; and the table
of four buckets that a later resize gives it. -/
theorem resize_is_create_after_refusal :
    ∃ (t : Table) (notices : List Notice) (s s' : Session),
      Table.create (.below (2 ^ 22)) .single .default 64 = .ok ⟨t, notices, none⟩ ∧
      Reachable .on (ofTable t) s ∧ s.table.buckets.toList.map Bucket.occupied = [1, 0] ∧
      s.table.generation = 8 ∧
      (s.table.resize (.below 0) .single 128).outcome = .error (.outOfMemory largePage) ∧
      (s.table.resize (.below 0) .single 128).table = Table.single .default ∧
      Reachable .off (ofTable (Table.single .default)) s' ∧
      s'.table.buckets.toList.map Bucket.occupied = [1] ∧
      (s'.table.resize (.below (2 ^ 22)) (.plan [.drop, .run]) 128).fault = none ∧
      (s'.table.resize (.below (2 ^ 22)) (.plan [.drop, .run]) 128).table =
        Table.laidOut .default 4 largePage := by
  have created : Table.create (.below (2 ^ 22)) .single .default 64 =
      .ok ⟨Table.laidOut .default 2 largePage, _, none⟩ := rfl
  have refused : Table.create (.below 0) .single .default 128 = .error (.outOfMemory largePage) := rfl
  have granted : Table.create (.below (2 ^ 22)) .single .default 128 =
      .ok ⟨Table.laidOut .default 4 largePage, _, none⟩ := rfl
  have hr : Reachable .on (ofTable (Table.laidOut .default 2 largePage)) _ :=
    Reachable.start.answerAll (.below 0) [.newSearch 1, .write 7 (.failedHigh Move.none 3) none none]
  obtain ⟨-, houtcome, -, -, hrefused⟩ :=
    hr.resize_is_create created (.below 0) .single .single 128
  obtain ⟨-, htable, -, hlater⟩ := hrefused _ refused
  have hr' : Reachable .off (ofTable (Table.single .default)) _ :=
    Reachable.start.answerAll (.below 0) [.write 9 (.failedHigh Move.none 3) none none]
  rw [refused] at houtcome
  obtain ⟨-, hfault, hfresh⟩ := (hlater _ (by rw [htable]; exact hr')).2 (.below (2 ^ 22))
    (.plan [.drop, .run]) .single 128 _ granted
  exact ⟨_, _, _, _, created, hr, rfl, rfl, houtcome, htable, hr', rfl, hfault.trans (by decide),
    hfresh⟩

end Session

end Transposition
