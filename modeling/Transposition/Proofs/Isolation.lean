import Transposition.Proofs.Lifetime

/-!
# Buckets are isolated from each other

Between two clears a table is used by new searches, by probes, and by writes through the writer of a
probe made for them (`Command.Plain`). Each probe and each write reads and changes the bucket of its
key only, and every decision in it is made on that bucket and the generation.

Two tables agree on a bucket (`Table.AgreeOn`) if they differ at most in what the others hold. A
request that concerns the bucket is answered alike by both and leaves them in agreement
(`Session.answer_of_agreeOn`); one that does not leaves the table in agreement with what it was
(`Session.agreeOn_answer`). So the requests that concern other buckets can be left out of a session,
and two writes to different buckets can change places.
-/

namespace Transposition

/-! ## Requests between two clears -/

/-- New searches, probes, and writes through the writer of a probe made right before. -/
inductive Command.Plain : Command → Prop
  | newSearch (times : Nat) : Plain (.newSearch times)
  | probe (key : UInt64) (keep : Option String) : Plain (.probe key keep)
  | write (key : UInt64) (r : Record) (generation : Option UInt8) :
      Plain (.write key r generation none)

/-- Whether a request is none for another bucket of the table: all but probes and writes under keys
that belong to another. -/
def Command.concerns (t : Table) (number : Nat) : Command → Bool
  | .probe key _ => t.indexOf key == number
  | .write key _ _ _ => t.indexOf key == number
  | _ => true

/-- The answers to the requests of a sequence that satisfy a condition. -/
def answersTo (p : Command → Bool) (commands : List Command) (answers : List Answer) : List Answer :=
  ((commands.zip answers).filter fun pair => p pair.1).map Prod.snd

theorem answersTo_cons_of_pos {p : Command → Bool} {command : Command} (h : p command = true)
    (commands : List Command) (a : Answer) (answers : List Answer) :
    answersTo p (command :: commands) (a :: answers) = a :: answersTo p commands answers := by
  simp [answersTo, h]

theorem answersTo_cons_of_neg {p : Command → Bool} {command : Command} (h : p command = false)
    (commands : List Command) (a : Answer) (answers : List Answer) :
    answersTo p (command :: commands) (a :: answers) = answersTo p commands answers := by
  simp [answersTo, h]

/-! ## Agreement of tables on a bucket -/

namespace Table

variable {number : Nat} {t t' : Table}

/-- Two tables differ at most in what they hold in buckets other than that of the number. -/
structure AgreeOn (number : Nat) (t t' : Table) : Prop where
  /-- Everything but the contents of the buckets is the same. -/
  frame : t.SameFrame t'
  /-- The bucket is the same, or missing in both. -/
  bucket : t.buckets[number]? = t'.buckets[number]?

theorem AgreeOn.refl (number : Nat) (t : Table) : AgreeOn number t t := ⟨.refl t, rfl⟩

theorem AgreeOn.symm (h : AgreeOn number t t') : AgreeOn number t' t := by
  obtain ⟨⟨buckets, hsize, rfl⟩, hbucket⟩ := h
  exact ⟨⟨t.buckets, hsize.symm, rfl⟩, hbucket.symm⟩

theorem AgreeOn.trans {t'' : Table} (h : AgreeOn number t t') (h' : AgreeOn number t' t'') :
    AgreeOn number t t'' :=
  ⟨h.frame.trans h'.frame, h.bucket.trans h'.bucket⟩

/-- Tables that agree on every bucket are the same. -/
theorem eq_of_agreeOn (h : ∀ number, AgreeOn number t t') : t = t' := by
  obtain ⟨buckets, -, rfl⟩ := (h 0).frame
  have heq : t.buckets = buckets := Array.ext_getElem? fun number => (h number).bucket
  rw [← heq]

/-- Tables that agree on a bucket give the same answer when asked for it. -/
theorem AgreeOn.bucketAt_eq (h : AgreeOn number t t') : t.bucketAt number = t'.bucketAt number := by
  obtain ⟨⟨buckets, hsize, rfl⟩, hbucket⟩ := h
  unfold bucketAt
  rw [hbucket, hsize]

/-- Tables that agree on a bucket answer a probe of one of its keys alike. -/
theorem AgreeOn.probe_eq {key : UInt64} (h : AgreeOn (t.indexOf key) t t') :
    t.probe key = t'.probe key := by
  have hbucket := h.bucketAt_eq
  obtain ⟨buckets, -, rfl⟩ := h.frame
  unfold probe bucketOf
  rw [hbucket]
  rfl

/-- New searches do not change which bucket a key belongs to. -/
theorem indexOf_repeat_newSearch (t : Table) (times : Nat) (key : UInt64) :
    (times.repeat newSearch t).indexOf key = t.indexOf key := by
  induction times with
  | zero => rfl
  | succ times ih => exact ih

/-- New searches leave the agreement. -/
theorem AgreeOn.repeat_newSearch (h : AgreeOn number t t') (times : Nat) :
    AgreeOn number (times.repeat newSearch t) (times.repeat newSearch t') := by
  induction times with
  | zero => exact h
  | succ times ih =>
    obtain ⟨⟨buckets, hsize, heq⟩, hbucket⟩ := ih
    refine ⟨⟨buckets, hsize, ?_⟩, hbucket⟩
    show newSearch (times.repeat newSearch t') = _
    rw [heq]
    rfl

/-- A write through a writer reads and changes only the writer's bucket: two tables that agree on it
go on to do so, and the same fault stops both writes. -/
theorem AgreeOn.write {w : Writer} (h : AgreeOn w.bucket t t') (checks : Checks) (key : UInt64)
    (generation : UInt8) (r : Record) :
    AgreeOn w.bucket (t.write checks w key generation r).1 (t'.write checks w key generation r).1 ∧
      (t.write checks w key generation r).2 = (t'.write checks w key generation r).2 := by
  have hbucket := h.bucketAt_eq
  unfold Table.write
  rw [← hbucket]
  cases hb : t.bucketAt w.bucket with
  | error fault => exact ⟨h, rfl⟩
  | ok b =>
    have hold := (bucketAt_eq_ok_iff _ _ _).mp hb
    have hold' := (bucketAt_eq_ok_iff _ _ _).mp (hbucket ▸ hb)
    obtain ⟨buckets, hsize, rfl⟩ := h.frame
    -- Both writes save into the same bucket, under the same parameters.
    let saved := (b.trySave checks t.params (entryKey key) generation r w.slot).bucket
    refine ⟨⟨?_, ?_⟩, rfl⟩
    · exact ⟨buckets.setIfInBounds w.bucket saved, by simp [hsize], rfl⟩
    · show (t.setBucket w.bucket saved).buckets[w.bucket]? =
        (setBucket { t with buckets } w.bucket saved).buckets[w.bucket]?
      rw [getElem?_setBucket_self hold, getElem?_setBucket_self hold']

/-- A write through a writer leaves the other buckets. -/
theorem agreeOn_write {w : Writer} (h : number ≠ w.bucket) (checks : Checks) (key : UInt64)
    (generation : UInt8) (r : Record) (t : Table) :
    AgreeOn number t (t.write checks w key generation r).1 := by
  refine ⟨t.sameFrame_write checks w key generation r, ?_⟩
  unfold Table.write
  cases hb : t.bucketAt w.bucket with
  | error fault => rfl
  | ok b => exact (getElem?_setBucket_of_ne t h _).symm

end Table

/-! ## One request -/

namespace Session

open Table (AgreeOn)

variable (checks : Checks) (memory : Memory) {number : Nat} {s s' : Session}

/-- A write through a writer of the bucket on which two tables agree is answered alike, and they go on
to agree. -/
theorem writeVia_of_agreeOn {w : Writer} (h : AgreeOn w.bucket s.table s'.table) (key : UInt64)
    (generation : Option UInt8) (r : Record) :
    AgreeOn w.bucket (s.writeVia checks w key generation r).1.table
        (s'.writeVia checks w key generation r).1.table ∧
      (s.writeVia checks w key generation r).2 = (s'.writeVia checks w key generation r).2 := by
  have hgeneration : s'.table.generation = s.table.generation := by
    obtain ⟨_, -, heq⟩ := h.frame
    rw [heq]
  obtain ⟨htable, hfault⟩ := h.write checks key (generation.getD s.table.generation) r
  rw [fst_writeVia, fst_writeVia, hgeneration]
  refine ⟨htable, ?_⟩
  -- What the answer tells of the bucket is read from the tables after the write.
  unfold writeVia
  dsimp only
  rw [hgeneration, htable.bucketAt_eq, hfault]
  split <;> rfl

/-- A request that concerns the bucket on which two tables agree is answered alike, and they go on to
agree. -/
theorem answer_of_agreeOn (h : AgreeOn number s.table s'.table) {command : Command}
    (hplain : command.Plain) (hc : command.concerns s.table number = true) :
    AgreeOn number (s.answer checks memory command).1.table
        (s'.answer checks memory command).1.table ∧
      (s.answer checks memory command).2 = (s'.answer checks memory command).2 := by
  cases hplain with
  | newSearch times =>
    have hsearch := h.repeat_newSearch times
    refine ⟨hsearch, ?_⟩
    obtain ⟨_, -, heq⟩ := hsearch.frame
    show Answer.generation (times.repeat Table.newSearch s.table).generation =
      .generation (times.repeat Table.newSearch s'.table).generation
    rw [heq]
  | probe key keep =>
    obtain rfl : s.table.indexOf key = number := beq_iff_eq.mp hc
    simp only [answer, ← h.probe_eq]
    -- Keeping the writer changes neither table.
    cases s.table.probe key with
    | error fault => exact ⟨h, rfl⟩
    | ok p => cases keep <;> exact ⟨h, rfl⟩
  | write key r generation =>
    obtain rfl : s.table.indexOf key = number := beq_iff_eq.mp hc
    simp only [answer, ← h.probe_eq]
    cases hp : s.table.probe key with
    | error fault => exact ⟨h, rfl⟩
    | ok p =>
      obtain ⟨_, -, hbucket, -⟩ := (Table.probe_eq_ok_iff _ _ _).mp hp
      rw [← hbucket] at h ⊢
      exact writeVia_of_agreeOn checks h key generation r

/-- A request that does not concern a bucket leaves it, and everything else that requests to it depend
on. -/
theorem agreeOn_answer {command : Command} (hplain : command.Plain)
    (hc : command.concerns s.table number = false) :
    AgreeOn number s.table (s.answer checks memory command).1.table := by
  cases hplain with
  | newSearch times => cases hc
  | probe key keep =>
    simp only [answer]
    cases s.table.probe key with
    | error fault => exact .refl number s.table
    | ok p => cases keep <;> exact .refl number s.table
  | write key r generation =>
    simp only [answer]
    cases hp : s.table.probe key with
    | error fault => exact .refl number s.table
    | ok p =>
      obtain ⟨_, -, hbucket, -⟩ := (Table.probe_eq_ok_iff _ _ _).mp hp
      have hne : number ≠ p.writer.bucket := by
        rw [hbucket]
        exact fun heq => beq_eq_false_iff_ne.mp hc heq.symm
      show AgreeOn number s.table (s.writeVia checks p.writer key generation r).1.table
      rw [fst_writeVia]
      exact Table.agreeOn_write hne checks key _ r s.table

/-- Plain requests leave the number of buckets, so they never change which bucket a key belongs to. -/
theorem indexOf_answer {command : Command} (hplain : command.Plain) (key : UInt64) :
    (s.answer checks memory command).1.table.indexOf key = s.table.indexOf key := by
  cases hplain with
  | newSearch times => exact s.table.indexOf_repeat_newSearch times key
  | probe _ keep =>
    simp only [answer]
    split
    · rfl
    · cases keep <;> rfl
  | write key' r generation =>
    simp only [answer]
    split
    · rfl
    · rename_i p _
      rw [fst_writeVia]
      obtain ⟨_, -, heq⟩ := s.table.sameFrame_write checks p.writer key'
        (generation.getD s.table.generation) r
      rw [heq]
      rfl

/-- So they change neither which requests concern a bucket. -/
theorem concerns_answer {command : Command} (hplain : command.Plain) (number : Nat) :
    Command.concerns (s.answer checks memory command).1.table number =
      Command.concerns s.table number := by
  funext c
  cases c <;> simp only [Command.concerns, indexOf_answer checks memory hplain]

/-! ## Sessions -/

/-- Of a session between two clears only the requests that concern a bucket matter to it: without the
others it ends in agreement on the bucket, with the same answers. -/
theorem answerAll_of_agreeOn (h : AgreeOn number s.table s'.table) {commands : List Command}
    (hplain : ∀ c ∈ commands, c.Plain) :
    AgreeOn number (s.answerAll checks memory commands).1.table
        (s'.answerAll checks memory (commands.filter (Command.concerns s.table number))).1.table ∧
      answersTo (Command.concerns s.table number) commands (s.answerAll checks memory commands).2 =
        (s'.answerAll checks memory (commands.filter (Command.concerns s.table number))).2 := by
  induction commands generalizing s s' with
  | nil => exact ⟨h, rfl⟩
  | cons command rest ih =>
    obtain ⟨hfirst, hrest⟩ := List.forall_mem_cons.mp hplain
    have hconcerns := concerns_answer checks memory (s := s) hfirst number
    simp only [answerAll]
    cases hc : command.concerns s.table number with
    | true =>
      -- Both sessions answer the request, and alike.
      obtain ⟨htable, hanswer⟩ := answer_of_agreeOn checks memory h hfirst hc
      obtain ⟨hend, hanswers⟩ := ih htable hrest
      rw [hconcerns] at hend hanswers
      rw [List.filter_cons_of_pos hc, answersTo_cons_of_pos hc, hanswers, hanswer]
      exact ⟨hend, rfl⟩
    | false =>
      -- Only the first session answers it, and the bucket stays.
      have hstay := agreeOn_answer checks memory hfirst hc
      obtain ⟨hend, hanswers⟩ := ih (hstay.symm.trans h) hrest
      rw [hconcerns] at hend hanswers
      rw [List.filter_cons_of_neg (by simp [hc]), answersTo_cons_of_neg hc]
      exact ⟨hend, hanswers⟩

/-- The requests of a sequence are answered by what the requests before it leave. -/
theorem answerAll_append (before after : List Command) :
    s.answerAll checks memory (before ++ after) =
      (((s.answerAll checks memory before).1.answerAll checks memory after).1,
        (s.answerAll checks memory before).2 ++
          ((s.answerAll checks memory before).1.answerAll checks memory after).2) := by
  induction before generalizing s with
  | nil => rfl
  | cons command rest ih => simp only [List.cons_append, answerAll, ih]

/-- A part of a sequence is answered by what the requests before it leave, and its end is where the
requests after it begin. -/
theorem answerAll_between {before commands : List Command} {middle : Session} {answers : List Answer}
    (h : (s.answerAll checks memory before).1.answerAll checks memory commands = (middle, answers))
    (after : List Command) :
    s.answerAll checks memory (before ++ (commands ++ after)) =
      ((middle.answerAll checks memory after).1, (s.answerAll checks memory before).2 ++
        (answers ++ (middle.answerAll checks memory after).2)) := by
  rw [answerAll_append, answerAll_append, h]

theorem length_answerAll (commands : List Command) :
    (s.answerAll checks memory commands).2.length = commands.length := by
  induction commands generalizing s with
  | nil => rfl
  | cons command rest ih => simp only [answerAll, List.length_cons, ih]

/-- Plain requests never change which bucket a key belongs to. -/
theorem indexOf_answerAll {commands : List Command} (hplain : ∀ c ∈ commands, c.Plain)
    (key : UInt64) :
    (s.answerAll checks memory commands).1.table.indexOf key = s.table.indexOf key := by
  induction commands generalizing s with
  | nil => rfl
  | cons command rest ih =>
    obtain ⟨hfirst, hrest⟩ := List.forall_mem_cons.mp hplain
    exact (ih hrest).trans (indexOf_answer checks memory hfirst key)

/-- A write through the writer of a probe made for it keeps no writer. -/
theorem writers_answer_write (key : UInt64) (r : Record) (generation : Option UInt8) :
    (s.answer checks memory (.write key r generation none)).1.writers = s.writers := by
  simp only [answer]
  split
  · rfl
  · rw [fst_writeVia]

/-! ## Writes to different buckets -/

variable {key key' : UInt64} {r r' : Record} {generation generation' : Option UInt8}

/-- Of two writes to different buckets at most one concerns any bucket, so their order does not matter
to what is left of them. -/
theorem filter_concerns_swap (hne : s.table.indexOf key ≠ s.table.indexOf key') (number : Nat) :
    [Command.write key r generation none, .write key' r' generation' none].filter
        (Command.concerns s.table number) =
      [Command.write key' r' generation' none, .write key r generation none].filter
        (Command.concerns s.table number) := by
  by_cases hkey : s.table.indexOf key = number
  · have hkey' : s.table.indexOf key' ≠ number := fun heq => hne (hkey.trans heq.symm)
    simp [Command.concerns, hkey, hkey']
  · simp [Command.concerns, List.filter_cons, hkey]

/-- Two writes to different buckets can change places: they leave the same and are answered alike. -/
theorem answerAll_swap (hne : s.table.indexOf key ≠ s.table.indexOf key') (r r' : Record)
    (generation generation' : Option UInt8) :
    ∃ final a a',
      s.answerAll checks memory [.write key r generation none, .write key' r' generation' none] =
        (final, [a, a']) ∧
      s.answerAll checks memory [.write key' r' generation' none, .write key r generation none] =
        (final, [a', a]) := by
  let w : Command := .write key r generation none
  let w' : Command := .write key' r' generation' none
  have hplain : ∀ c ∈ [w, w'], c.Plain := by
    simpa using ⟨.write key r generation, .write key' r' generation'⟩
  have hplain' : ∀ c ∈ [w', w], c.Plain := by
    simpa using ⟨.write key' r' generation', .write key r generation⟩
  -- On every bucket both orders agree with what is left of them there, which is the same.
  have hleft (number : Nat) :=
    answerAll_of_agreeOn checks memory (.refl number s.table) hplain
  have hright (number : Nat) :=
    answerAll_of_agreeOn checks memory (.refl number s.table) hplain'
  have hfilter (number : Nat) : [w, w'].filter (Command.concerns s.table number) =
      [w', w].filter (Command.concerns s.table number) := filter_concerns_swap hne number
  have htable : (s.answerAll checks memory [w, w']).1.table =
      (s.answerAll checks memory [w', w]).1.table := by
    refine Table.eq_of_agreeOn fun number => ?_
    have h := (hleft number).1
    rw [hfilter] at h
    exact h.trans (hright number).1.symm
  have hanswers (number : Nat) : answersTo (Command.concerns s.table number) [w, w']
        (s.answerAll checks memory [w, w']).2 =
      answersTo (Command.concerns s.table number) [w', w] (s.answerAll checks memory [w', w]).2 := by
    rw [(hleft number).2, hfilter, (hright number).2]
  have hwriters : (s.answerAll checks memory [w, w']).1.writers =
      (s.answerAll checks memory [w', w]).1.writers := by
    simp only [answerAll, w, w', writers_answer_write]
  -- The answers to either write are those to the requests of its bucket.
  have hfirst : (s.answer checks memory w).2 =
      ((s.answer checks memory w').1.answer checks memory w).2 := by
    have h := hanswers (s.table.indexOf key)
    simpa [answersTo, answerAll, Command.concerns, w, w', hne.symm] using h
  have hsecond : ((s.answer checks memory w).1.answer checks memory w').2 =
      (s.answer checks memory w').2 := by
    have h := hanswers (s.table.indexOf key')
    simpa [answersTo, answerAll, Command.concerns, w, w', hne] using h
  have hfinal : (s.answerAll checks memory [w, w']).1 = (s.answerAll checks memory [w', w]).1 :=
    congrArg₂ Session.mk htable hwriters
  refine ⟨(s.answerAll checks memory [w, w']).1, (s.answer checks memory w).2,
    (s.answer checks memory w').2, ?_, ?_⟩
  · rw [← hsecond]
    rfl
  · rw [hfinal, hfirst]
    rfl

/-- For every table, between two clears and for every bucket: the content of the bucket at the end and
the answers to all requests that concern it are those of the session without the probes and writes
whose keys belong to other buckets. So two writes, one after the other, whose keys belong to different
buckets can change places: their answers change places with them, and every other answer and all that
is left at the end, also of later requests of every kind, stay the same. -/
theorem isolated_and_swap (checks : Checks) (memory : Memory) (s : Session) :
    (∀ commands : List Command, (∀ c ∈ commands, c.Plain) → ∀ number : Nat,
      (s.answerAll checks memory commands).1.table.buckets[number]? =
        (s.answerAll checks memory
          (commands.filter (Command.concerns s.table number))).1.table.buckets[number]? ∧
      answersTo (Command.concerns s.table number) commands (s.answerAll checks memory commands).2 =
        (s.answerAll checks memory (commands.filter (Command.concerns s.table number))).2) ∧
    ∀ (before after : List Command) (key key' : UInt64) (r r' : Record)
      (generation generation' : Option UInt8), (∀ c ∈ before, c.Plain) →
      s.table.indexOf key ≠ s.table.indexOf key' →
        ∃ final first a a' later, first.length = before.length ∧
          s.answerAll checks memory (before ++ .write key r generation none ::
            .write key' r' generation' none :: after) = (final, first ++ a :: a' :: later) ∧
          s.answerAll checks memory (before ++ .write key' r' generation' none ::
            .write key r generation none :: after) = (final, first ++ a' :: a :: later) := by
  refine ⟨fun commands hplain number => ?_, ?_⟩
  · obtain ⟨hagree, hanswers⟩ :=
      answerAll_of_agreeOn checks memory (.refl number s.table) hplain
    exact ⟨hagree.bucket, hanswers⟩
  · intro before after key key' r r' generation generation' hplain hne
    rw [← indexOf_answerAll checks memory hplain key,
      ← indexOf_answerAll checks memory hplain key'] at hne
    obtain ⟨middle, a, a', hleft, hright⟩ :=
      answerAll_swap checks memory hne r r' generation generation'
    exact ⟨(middle.answerAll checks memory after).1, (s.answerAll checks memory before).2, a, a',
      (middle.answerAll checks memory after).2, length_answerAll checks memory before,
      answerAll_between checks memory hleft after,
      answerAll_between checks memory hright after⟩

/-- A table of two buckets. The keys of the two writes belong to different ones, so the second bucket
does not notice the first write, and the writes can change places. -/
theorem isolated_and_swap_two_buckets :
    let t : Table := { Table.single .default with buckets := #[.empty, .empty], bucketCount := 2 }
    let s := Session.ofTable t
    let key : UInt64 := 0x8000000000000000
    let w : Command := .write 5 (.failedHigh Move.none 10) none none
    let w' : Command := .write key (.failedHigh ⟨7⟩ 3) none none
    (∀ c ∈ [.newSearch 1, w, w'], c.Plain) ∧
      s.table.indexOf 5 ≠ s.table.indexOf key ∧
      (s.answerAll .on (.below 0) [.newSearch 1, w, w']).1.table.buckets[1]? =
        (s.answerAll .on (.below 0) [.newSearch 1, w']).1.table.buckets[1]? ∧
      (s.answerAll .on (.below 0) [.newSearch 1, w, w', .census]).1 =
        (s.answerAll .on (.below 0) [.newSearch 1, w', w, .census]).1 := by
  intro t s key w w'
  have hplain : ∀ c ∈ [.newSearch 1, w, w'], c.Plain := by
    simpa using ⟨.newSearch 1, .write .., .write ..⟩
  have hne : s.table.indexOf 5 ≠ s.table.indexOf key := by decide
  have hother : w.concerns s.table 1 = false := by decide
  have hown : w'.concerns s.table 1 = true := by decide
  have hfilter : [.newSearch 1, w, w'].filter (Command.concerns s.table 1) =
      [.newSearch 1, w'] := by
    simp only [List.filter, hother, hown]
    rfl
  obtain ⟨hbucket, hswap⟩ := isolated_and_swap .on (.below 0) s
  obtain ⟨final, _, _, _, _, -, hleft, hright⟩ := hswap [.newSearch 1] [.census] 5 key
    (.failedHigh Move.none 10) (.failedHigh ⟨7⟩ 3) none none (by simpa using .newSearch 1) hne
  refine ⟨hplain, hne, ?_, ?_⟩
  · have hlast := (hbucket _ hplain 1).1
    rwa [hfilter] at hlast
  · exact (congrArg Prod.fst hleft).trans (congrArg Prod.fst hright).symm

end Session

end Transposition
