import Transposition.Proofs.Run

/-!
# Where a record that is found comes from

Each field of an occupied entry comes from a write of the run, and not all from the same. The last
write that overwrote the entry gave it its key, its scores, its stamp and its flag. Writes that it
has refused since then can have worn its depth down or replaced its move. `Origin` says this of
one entry; each write to the entry keeps it (`Traced.save`), and so does all that happens elsewhere
(`Traced.elsewhere`). Nothing is asked of the writers for it: they can be as old as they like.

What a probe finds is then traced back to the write (`Run.hit_provenance`). For the bucket to be the
key's own, and the bound to be the one that was written, the writes have to be `Proper`.
-/

namespace Transposition

/-- A write is proper if its writer is used with the key that it was probed for, and with a
generation whose low bits are zero. -/
structure Write.Proper (w : Write) : Prop where
  /-- The key is the one whose probe returned the writer. -/
  key : w.key = w.probed
  /-- The low bits of the generation are zero. -/
  generation : w.generation.toNat % 8 = 0

/-- Whether an event is a write to a place that the entry there answered with a verdict. -/
def Event.hits (place : Writer) (v : Verdict) : Event → Bool
  | .wrote w => w.writer == place && w.verdict == v
  | _ => false

/-- A write hits its own place with its own verdict. -/
theorem Event.hits_wrote_self (w : Write) (v : Verdict) :
    (Event.wrote w).hits w.writer v = decide (w.verdict = v) := by
  show (w.writer == w.writer && w.verdict == v) = _
  rw [beq_self_eq_true, Bool.true_and]
  rfl

/-- A write hits no place but its own. -/
theorem Event.hits_wrote_of_ne {w : Write} {place : Writer} (h : w.writer ≠ place) (v : Verdict) :
    (Event.wrote w).hits place v = false := by
  show (w.writer == place && w.verdict == v) = false
  rw [beq_false_of_ne h, Bool.false_and]

/-- The number of writes to a place that were answered with a verdict. -/
def History.tally (place : Writer) (v : Verdict) (h : History) : Nat :=
  h.countP (Event.hits place v)

@[simp]
theorem History.tally_cons (place : Writer) (v : Verdict) (e : Event) (h : History) :
    History.tally place v (e :: h) = h.tally place v + if e.hits place v then 1 else 0 :=
  List.countP_cons

/-! ## The fields of one entry -/

/-- An entry and its flag come from a write to their place: all but the move as it was written, except
for a ply of depth that each decay since then has taken. -/
structure Origin (newer : History) (place : Writer) (w : Write) (e : Entry) (cut : Bool) : Prop where
  /-- The write went to the place. -/
  writer : w.writer = place
  /-- It overwrote the entry there. -/
  verdict : w.verdict = .overwrite
  /-- No newer write has. -/
  last : newer.tally place .overwrite = 0
  /-- The key is the written one. -/
  key : e.key = entryKey w.key
  /-- The value is the written one. -/
  value : e.value = w.record.value.toInt16
  /-- The evaluation is the written one. -/
  eval : e.eval = w.record.eval.toInt16
  /-- The node kind and the bound are the written ones. -/
  stamp : e.stamp = Stamp.make w.generation w.record.pv w.record.bound
  /-- The flag is the written one. -/
  cut : cut = w.record.cut
  /-- The depth is the written one, less the decays. -/
  depth : e.depthByte.toNat + newer.tally place .decay = w.record.depth.biased

/-- One write of a history is the origin of an entry and its flag. -/
def Traced (h : History) (place : Writer) (e : Entry) (cut : Bool) : Prop :=
  ∃ w newer older, h = newer ++ .wrote w :: older ∧ Origin newer place w e cut

/-- The move of an entry is none or was supplied by a write to the bucket under the entry's key. -/
def Supplied (h : History) (number : Nat) (e : Entry) : Prop :=
  e.move = Move.none ∨
    ∃ v, .wrote v ∈ h ∧ v.writer.bucket = number ∧ entryKey v.key = e.key ∧ v.record.move = e.move

section Step

variable {h : History} {place : Writer} {e e' : Entry} {cut : Bool} {event : Event} {w : Write}

/-- An event that does not overwrite the entry leaves its origin, if it changes no more than the move
and a ply of depth that it counts as a decay. -/
theorem Traced.refused (ht : Traced h place e cut) (hne : event.hits place .overwrite = false)
    (hkey : e'.key = e.key) (hvalue : e'.value = e.value) (heval : e'.eval = e.eval)
    (hstamp : e'.stamp = e.stamp)
    (hdepth : e'.depthByte.toNat + (if event.hits place .decay then 1 else 0) = e.depthByte.toNat) :
    Traced (event :: h) place e' cut := by
  obtain ⟨w, newer, older, rfl, ho⟩ := ht
  refine ⟨w, event :: newer, older, rfl, ho.writer, ho.verdict, ?_, hkey.trans ho.key,
    hvalue.trans ho.value, heval.trans ho.eval, hstamp.trans ho.stamp, ho.cut, ?_⟩
  · rw [History.tally_cons, ho.last, hne]
    rfl
  · rw [History.tally_cons, ← ho.depth, ← hdepth]
    omega

/-- What happens elsewhere leaves the origin of an entry. -/
theorem Traced.elsewhere (ht : Traced h place e cut) (hq : ∀ v, event.hits place v = false) :
    Traced (event :: h) place e cut := by
  refine ht.refused (hq _) rfl rfl rfl rfl ?_
  rw [hq]
  rfl

/-- A move that was supplied stays so. -/
theorem Supplied.cons {number : Nat} (hs : Supplied h number e) (event : Event) :
    Supplied (event :: h) number e := by
  rcases hs with hnone | ⟨v, hv, hrest⟩
  · exact Or.inl hnone
  · exact Or.inr ⟨v, List.mem_cons_of_mem _ hv, hrest⟩

variable (p : Replacement)

/-- Whether a write is refused or not, the move that it leaves was supplied under its key. -/
theorem Supplied.save (hs : Supplied h w.writer.bucket e) :
    Supplied (.wrote w :: h) w.writer.bucket
      (e.save p (entryKey w.key) w.generation w.record) := by
  rcases e.move_save p (entryKey w.key) w.generation w.record with hm | ⟨-, hkey, hm⟩
  · exact Or.inr ⟨w, List.mem_cons_self, rfl, (Entry.key_save _ _ _ _ _).symm, hm.symm⟩
  · -- The old move stays, and it was supplied under the key that the entry still has.
    rcases hs with hnone | ⟨v, hv, hbucket, hvkey, hvmove⟩
    · exact Or.inl (hm.trans hnone)
    · refine Or.inr ⟨v, List.mem_cons_of_mem _ hv, hbucket, ?_, hvmove.trans hm.symm⟩
      rw [Entry.key_save, hvkey, hkey]

/-- A write leaves an entry that is traced, if it is occupied: a new origin if the write overwrites,
and else the old one. -/
theorem Traced.save {b : Bucket}
    (hv : w.verdict = (b.entry w.writer.slot).verdict p (entryKey w.key) w.generation w.record)
    (ht : (b.entry w.writer.slot).occupied = true →
      Traced h w.writer (b.entry w.writer.slot) (b.flags.get w.writer.slot))
    (ho : ((b.save p (entryKey w.key) w.generation w.record w.writer.slot).entry
      w.writer.slot).occupied = true) :
    Traced (.wrote w :: h) w.writer
      ((b.save p (entryKey w.key) w.generation w.record w.writer.slot).entry w.writer.slot)
      ((b.save p (entryKey w.key) w.generation w.record w.writer.slot).flags.get w.writer.slot) := by
  rw [Bucket.entry_save_self] at ho ⊢
  by_cases hy : (b.entry w.writer.slot).Yields p (entryKey w.key) w.generation w.record
  · -- The write is its own origin, and nothing is newer.
    have hv' := (Entry.verdict_eq_overwrite_iff _ _ _ _ _).mpr hy
    rw [Entry.save_of_yields hy, Bucket.flag_save_of_yields hy]
    refine ⟨w, [], h, rfl, rfl, hv.trans hv', rfl, rfl, rfl, rfl, rfl, rfl, ?_⟩
    exact Depth.toNat_toByte w.record.depth
  · -- A refused write does not fill an entry, so this one had an origin already.
    have hocc := ((Entry.occupied_save_iff _ _ _ _ _).mp ho).resolve_left hy
    obtain ⟨hkey, hvalue, heval, hstamp, hdepth⟩ := Entry.save_of_not_yields hy
    rw [Bucket.flags_save_of_not_yields hy]
    refine (ht hocc).refused ?_ hkey hvalue heval hstamp ?_
    · rw [Event.hits_wrote_self, hv, decide_eq_false_iff_not, Entry.verdict_eq_overwrite_iff]
      exact hy
    · rw [Event.hits_wrote_self, hv]
      simpa using hdepth

end Step

/-! ## Buckets -/

/-- Every move of a bucket was supplied by a write to it, and every record traced to one. -/
def Accounted (h : History) (number : Nat) (b : Bucket) : Prop :=
  ∀ i : Slot, Supplied h number (b.entry i) ∧
    ((b.entry i).occupied = true → Traced h ⟨number, i⟩ (b.entry i) (b.flags.get i))

/-- A bucket stays accounted for through whatever is no write to it. -/
theorem Accounted.cons {h : History} {number : Nat} {b : Bucket} (ha : Accounted h number b)
    {event : Event} (hq : ∀ slot v, event.hits ⟨number, slot⟩ v = false) :
    Accounted (event :: h) number b :=
  fun i => ⟨(ha i).1.cons event, fun ho => ((ha i).2 ho).elsewhere (hq i)⟩

/-- A bucket stays accounted for through a write to it. -/
theorem Accounted.save {h : History} {b : Bucket} {w : Write} {p : Replacement}
    (ha : Accounted h w.writer.bucket b)
    (hv : w.verdict = (b.entry w.writer.slot).verdict p (entryKey w.key) w.generation w.record) :
    Accounted (.wrote w :: h) w.writer.bucket
      (b.save p (entryKey w.key) w.generation w.record w.writer.slot) := by
  intro i
  by_cases hi : i = w.writer.slot
  · subst hi
    refine ⟨?_, Traced.save p hv (ha _).2⟩
    rw [Bucket.entry_save_self]
    exact (ha _).1.save p
  · -- The write goes to another slot, so neither the entry nor its flag changes.
    rw [Bucket.entry_save_of_ne _ _ _ _ _ hi,
      Bucket.flag_save_of_ne _ _ _ _ _ fun heq => hi (Fin.ext heq)]
    refine ⟨(ha i).1.cons _, fun ho => ((ha i).2 ho).elsewhere fun v => ?_⟩
    exact Event.hits_wrote_of_ne (fun heq => hi (congrArg Writer.slot heq).symm) v

/-- Every bucket of a run is accounted for. -/
theorem accounted_invariant (params : Replacement) : Invariant params Accounted where
  empty := by
    intro n i
    rw [Bucket.entry_empty]
    exact ⟨Or.inl rfl, fun ho => absurd ho (by decide)⟩
  elsewhere := by
    intro h n b event hb hne
    refine hb.cons fun slot v => ?_
    cases event with
    | searched => rfl
    | probed key p => rfl
    | wrote w =>
      refine Event.hits_wrote_of_ne (fun heq => hne ?_) v
      rw [Event.bucket?, heq]
  probe hb _ := hb.cons fun _ _ => rfl
  write hb _ _ verdict := hb.save verdict

/-! ## Runs -/

variable {checks : Checks} {start t : Table} {h : History}

/-- A proper write of a run goes to the bucket of its key. -/
theorem Run.bucket_of_wrote (hr : Run checks start t h) {w : Write} (hw : .wrote w ∈ h)
    (hproper : w.Proper) : w.writer.bucket = t.indexOf w.key := by
  induction hr with
  | start => cases hw
  | search _ ih => exact ih (by simpa using hw)
  | probe _ _ ih => exact ih (by simpa using hw)
  | @write t t' h w' p b hrun held through bucket _ wrote ih =>
    obtain rfl := Table.eq_of_write bucket wrote
    rw [Table.indexOf_setBucket]
    rcases List.mem_cons.mp hw with heq | hw
    · obtain rfl := Event.wrote.inj heq
      rw [through, hrun.bucket_of_probed held, hproper.key]
    · exact ih hw

/-- In every state of a run from a blank table whose writes are all proper, a record that a probe
finds goes back to one write `w` of the run: the last to overwrite the slot, made under a key with the
same bucket and the same low bits. Value and evaluation are those of `w` reduced modulo `2^16`; bound,
node kind and flag are those of `w`; the depth is that of `w`, clamped, less the decays of the slot
since then. The move, if there is one, was supplied by a write under a key with the same bucket and the
same low bits. -/
theorem Run.hit_provenance (h₀ : start.Blank) (hr : Run checks start t h)
    (hproper : ∀ w, .wrote w ∈ h → w.Proper) {key : UInt64} {p : Probe} (hp : t.probe key = .ok p)
    (hf : p.found = true) :
    ∃ w newer older, h = newer ++ .wrote w :: older ∧ w.writer = p.writer ∧
      w.verdict = .overwrite ∧ History.tally p.writer .overwrite newer = 0 ∧
      t.indexOf w.key = t.indexOf key ∧ entryKey w.key = entryKey key ∧
      p.record.value.raw.toInt = w.record.value.raw.toInt.bmod UInt16.size ∧
      p.record.eval.raw.toInt = w.record.eval.raw.toInt.bmod UInt16.size ∧
      p.record.bound = w.record.bound ∧ p.record.pv = w.record.pv ∧ p.record.cut = w.record.cut ∧
      p.record.depth.toInt = w.record.depth.clamp - History.tally p.writer .decay newer ∧
      (p.record.move = Move.none ∨
        ∃ v, .wrote v ∈ h ∧ t.indexOf v.key = t.indexOf key ∧ entryKey v.key = entryKey key ∧
          v.record.move = p.record.move) := by
  obtain ⟨b, hb, hbucket, hl⟩ := (Table.probe_eq_ok_iff _ _ _).mp hp
  obtain ⟨hocc, hkey, hread⟩ := Bucket.of_found_lookup (by rw [hl]; exact hf)
  rw [hl] at hocc hkey hread
  have hrecord : p.record = b.read p.writer.slot := hread
  have hplace : (⟨t.indexOf key, p.writer.slot⟩ : Writer) = p.writer := by rw [← hbucket]
  obtain ⟨hsupplied, htraced⟩ := hr.holds (accounted_invariant start.params) h₀ hb p.writer.slot
  obtain ⟨w, newer, older, hsplit, ho⟩ := htraced hocc
  rw [hplace] at ho
  have hw : .wrote w ∈ h := by simp [hsplit]
  -- The write is proper, so its place is in the bucket of its key and its stamp can be decoded.
  have hg := (hproper w hw).generation
  have hindex : t.indexOf w.key = t.indexOf key := by
    rw [← hr.bucket_of_wrote hw (hproper w hw), ho.writer, hbucket]
  refine ⟨w, newer, older, hsplit, ho.writer, ho.verdict, ho.last, hindex, ho.key.symm.trans hkey,
    ?_, ?_, ?_, ?_, ?_, ?_, ?_⟩ <;> rw [hrecord]
  · show (Score.ofInt16 (b.entry p.writer.slot).value).raw.toInt = _
    rw [ho.value, Score.toInt_ofInt16_toInt16]
  · show (Score.ofInt16 (b.entry p.writer.slot).eval).raw.toInt = _
    rw [ho.eval, Score.toInt_ofInt16_toInt16]
  · show (b.entry p.writer.slot).stamp.bound = _
    rw [ho.stamp, Stamp.bound_make hg]
  · show (b.entry p.writer.slot).stamp.isPv = _
    rw [ho.stamp, Stamp.isPv_make hg]
  · exact ho.cut
  · show (Depth.ofByte (b.entry p.writer.slot).depthByte).toInt = _
    have hbiased := Depth.biased_eq w.record.depth
    have hdepth := ho.depth
    rw [Depth.toInt_ofByte]
    omega
  · show (b.entry p.writer.slot).move = Move.none ∨ _
    rcases hsupplied with hnone | ⟨v, hv, hvbucket, hvkey, hvmove⟩
    · exact Or.inl hnone
    · refine Or.inr ⟨v, hv, ?_, hvkey.trans hkey, hvmove⟩
      rw [← hr.bucket_of_wrote hv (hproper v hv), hvbucket]

/-- A record of depth ten that has resisted a shallow write through the same writer: it is found with
depth nine and the move of the refused write, and goes back to the first. -/
theorem hit_provenance_after_decay :
    ∃ (t : Table) (h : History) (p : Probe), (Table.single .default).Blank ∧
      Run .on (Table.single .default) t h ∧ (∀ w, .wrote w ∈ h → w.Proper) ∧
      t.probe 5 = .ok p ∧ p.found = true ∧ p.record.depth = 9 ∧ p.record.move = ⟨7⟩ ∧
      ∃ w newer older, h = newer ++ .wrote w :: older ∧ w.writer = p.writer ∧
        p.record.depth.toInt = w.record.depth.clamp - History.tally p.writer .decay newer := by
  have h₀ := Table.blank_single .default
  have hwrote : Run .on (Table.single .default) _
      [.wrote ⟨5, ⟨0, 0⟩, 5, 0, .failedHigh Move.none 10, .overwrite⟩, .probed 5 (.miss 0 0)] :=
    .write (p := .miss 0 0) (.probe .start rfl) (by simp) rfl rfl rfl rfl
  obtain ⟨t, hr, hp⟩ : ∃ t, Run .on (Table.single .default) t
      [.wrote ⟨5, ⟨0, 0⟩, 5, 0, .failedHigh ⟨7⟩ 2, .decay⟩,
        .wrote ⟨5, ⟨0, 0⟩, 5, 0, .failedHigh Move.none 10, .overwrite⟩, .probed 5 (.miss 0 0)] ∧
      t.probe 5 = .ok ⟨true, .failedHigh ⟨7⟩ 9, ⟨0, 0⟩⟩ :=
    ⟨_, .write (p := .miss 0 0) hwrote (by simp) rfl rfl rfl rfl, rfl⟩
  have hproper : ∀ w, .wrote w ∈ ([.wrote ⟨5, ⟨0, 0⟩, 5, 0, .failedHigh ⟨7⟩ 2, .decay⟩,
      .wrote ⟨5, ⟨0, 0⟩, 5, 0, .failedHigh Move.none 10, .overwrite⟩,
      .probed 5 (.miss 0 0)] : History) → w.Proper := by
    intro w hw
    simp only [List.mem_cons, List.not_mem_nil, Event.wrote.injEq, reduceCtorEq, or_false] at hw
    rcases hw with rfl | rfl <;> exact ⟨rfl, rfl⟩
  obtain ⟨w, newer, older, hsplit, hwriter, -, -, -, -, -, -, -, -, -, hdepth, -⟩ :=
    hr.hit_provenance h₀ hproper hp rfl
  exact ⟨t, _, _, h₀, hr, hproper, hp, rfl, rfl, rfl, w, newer, older, hsplit, hwriter, hdepth⟩

end Transposition
