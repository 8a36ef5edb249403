import Mathlib.Algebra.Order.BigOperators.Group.List
import Mathlib.Algebra.Order.Group.Nat
import Transposition.Proofs.Occupancy
import Transposition.Proofs.Packing
import Transposition.Proofs.Stopped

/-!
# Between two clears a table only fills up

Byte zero of the depth marks an unoccupied entry, and no write stores it: a depth is clamped before it
is biased, and an entry of byte one does not decay. So no write empties an entry, whatever the
replacement parameters, the depth and the generation are. This makes "every occupied entry has stayed
so" a relation of two buckets (`Bucket.FillsTo`) and of two tables (`Table.FillsTo`) that every request
but a clear or a resize satisfies (`Session.fillsTo_answer`), and with it every sequence of them
(`Session.Uncleared.fillsTo`).

An estimate of the occupancy that lets every age count grows with it (`Table.FillsTo.hashfull_le`). The
others need not, as an entry that was counted ages.
-/

namespace Transposition

/-! ## Buckets -/

namespace Bucket

/-- Every entry that is occupied in the first bucket is so in the second. -/
def FillsTo (b b' : Bucket) : Prop :=
  ∀ i, (b.entry i).occupied = true → (b'.entry i).occupied = true

variable {b b' : Bucket} {checks : Checks} {p : Replacement} {key : UInt16} {generation : UInt8}
  {r : Record} {slot : Slot}

theorem FillsTo.refl (b : Bucket) : b.FillsTo b := fun _ h => h

theorem FillsTo.trans {b'' : Bucket} (h : b.FillsTo b') (h' : b'.FillsTo b'') : b.FillsTo b'' :=
  fun i hi => h' i (h i hi)

/-- A bucket that has filled up has at least as many occupied entries. -/
theorem FillsTo.occupied_le (h : b.FillsTo b') : b.occupied ≤ b'.occupied :=
  List.countP_mono_left fun i _ => h i

/-- A move that is stored does not count for the occupancy. -/
theorem fillsTo_setEntry_withMove (b : Bucket) (slot : Slot) (key : UInt16) (r : Record) :
    b.FillsTo (b.setEntry slot ((b.entry slot).withMove key r)) := by
  intro i hi
  by_cases his : i = slot
  · subst his
    rw [Entry.occupied_iff] at hi ⊢
    rwa [entry_setEntry_self, Entry.depthByte_withMove]
  · rwa [entry_setEntry_of_ne b his]

/-- No write empties an entry, with checks or without, even if a check stops it. -/
theorem fillsTo_trySave (checks : Checks) (p : Replacement) (key : UInt16) (generation : UInt8)
    (r : Record) (slot : Slot) (b : Bucket) :
    b.FillsTo (b.trySave checks p key generation r slot).bucket := by
  cases hf : (b.trySave checks p key generation r slot).fault with
  | none =>
    rw [bucket_trySave hf]
    exact fun i => occupied_save
  | some fault =>
    rcases trySave_cases_of_fault hf with ⟨-, hb⟩ | ⟨-, -, hb⟩
    · rw [hb]
      exact .refl b
    · rw [hb]
      exact b.fillsTo_setEntry_withMove slot key r

/-- No request to a bucket empties an entry of it. -/
theorem fillsTo_answer (checks : Checks) (b : Bucket) (command : BucketCommand) :
    b.FillsTo (b.answer checks command).1 := by
  cases command with
  | save index params key generation record =>
    simp only [answer]
    split
    · exact .refl b
    · rename_i i _
      have hsave := b.fillsTo_trySave checks params key generation record i
      split <;> exact hsave
  | read index =>
    simp only [answer]
    split <;> exact .refl b
  | age index generations =>
    simp only [answer]
    split <;> exact .refl b
  | setFlag index flag =>
    simp only [answer]
    split <;> exact .refl b
  | getFlag index =>
    simp only [answer]
    split <;> exact .refl b
  | dump => exact .refl b

end Bucket

/-! ## Tables -/

namespace Table

/-- Every entry that is occupied in the first table is so in the second, which has the same buckets. -/
structure FillsTo (t t' : Table) : Prop where
  /-- The arrays have the same length. -/
  size : t'.buckets.size = t.buckets.size
  /-- Keys are spread over the same number of buckets. -/
  bucketCount : t'.bucketCount = t.bucketCount
  /-- Each bucket has filled up. -/
  bucket : ∀ (n : Nat) (b : Bucket), t.buckets[n]? = some b →
    ∃ b', t'.buckets[n]? = some b' ∧ b.FillsTo b'

variable {t t' : Table}

theorem FillsTo.refl (t : Table) : t.FillsTo t := ⟨rfl, rfl, fun _ b hb => ⟨b, hb, .refl b⟩⟩

theorem FillsTo.trans {t'' : Table} (h : t.FillsTo t') (h' : t'.FillsTo t'') : t.FillsTo t'' := by
  refine ⟨h'.size.trans h.size, h'.bucketCount.trans h.bucketCount, fun n b hb => ?_⟩
  obtain ⟨b', hb', hfill⟩ := h.bucket n b hb
  obtain ⟨b'', hb'', hfill'⟩ := h'.bucket n b' hb'
  exact ⟨b'', hb'', hfill.trans hfill'⟩

/-- A table fills up if one of its buckets does. -/
theorem fillsTo_setBucket {number : Nat} {b b' : Bucket} (hb : t.buckets[number]? = some b)
    (h : b.FillsTo b') : t.FillsTo (t.setBucket number b') := by
  refine ⟨t.size_setBucket number b', rfl, fun n c hc => ?_⟩
  by_cases hn : n = number
  · subst hn
    rw [hb, Option.some.injEq] at hc
    subst hc
    exact ⟨b', getElem?_setBucket_self hb b', h⟩
  · exact ⟨c, (getElem?_setBucket_of_ne t hn b').trans hc, .refl c⟩

/-- Writes fill a table up, even if they are stopped. -/
theorem keptByWrites_fillsTo (checks : Checks) : KeptByWrites checks FillsTo :=
  ⟨.refl, .trans, fun hb _ _ _ _ _ => fillsTo_setBucket hb (Bucket.fillsTo_trySave _ _ _ _ _ _ _)⟩

/-- New searches leave the buckets. -/
theorem fillsTo_repeat_newSearch (times : Nat) (t : Table) :
    t.FillsTo (times.repeat Table.newSearch t) := by
  induction times with
  | zero => exact .refl t
  | succ times ih => exact ⟨ih.size, ih.bucketCount, ih.bucket⟩

/-! ## The estimate of the occupancy -/

/-- If every age counts, the estimate is made of all occupied entries that are looked at. -/
theorem Sound.hashfull_of_any_age (h : t.Sound) {maxAge : UInt8} (ha : 31 ≤ maxAge.toNat) :
    t.hashfull (some maxAge) = .ok (1000 * (t.sampled.countP fun x => x.2.occupied) /
      (entryCount * min hashfullSample t.bucketCount)) := by
  have hcounts : (t.sampled.countP fun x => x.2.occupied &&
      decide (x.2.age t.generation ≤ maxAge.toNat * 8)) =
        t.sampled.countP fun x => x.2.occupied := by
    apply List.countP_congr
    intro x _
    have hage : x.2.age t.generation ≤ maxAge.toNat * 8 := (Stamp.age_le _ _).trans (by omega)
    simp [hage]
  rw [h.hashfull_eq, Option.getD_some, hcounts]

/-- Of the entries that are looked at, a table that has filled up has at least as many occupied. -/
theorem FillsTo.countP_sampled_le (h : t.FillsTo t') :
    (t.sampled.countP fun x => x.2.occupied) ≤ t'.sampled.countP fun x => x.2.occupied := by
  rw [countP_sampled Entry.occupied, countP_sampled Entry.occupied, h.bucketCount]
  -- The two sums are over buckets of the same numbers.
  apply List.Forall₂.sum_le_sum
  rw [List.forall₂_map_left_iff, List.forall₂_map_right_iff, List.forall₂_iff_get]
  simp only [Array.length_toList, Array.size_extract, h.size, true_and]
  intro n hn hn'
  have hlt : n < t.buckets.size := by omega
  obtain ⟨b', hb', hfill⟩ := h.bucket n _ (Array.getElem?_eq_getElem hlt)
  obtain ⟨_, rfl⟩ := Array.getElem?_eq_some_iff.mp hb'
  simp only [List.get_eq_getElem, Array.getElem_toList, Array.getElem_extract, Nat.zero_add]
  exact hfill.occupied_le

/-- If every age counts, the estimate does not decrease while a table fills up. -/
theorem FillsTo.hashfull_le (h : t.FillsTo t') (hs : t.Sound) {maxAge : UInt8}
    (ha : 31 ≤ maxAge.toNat) :
    ∃ n n', t.hashfull (some maxAge) = .ok n ∧ t'.hashfull (some maxAge) = .ok n' ∧ n ≤ n' := by
  have hs' : t'.Sound :=
    ⟨by rw [h.size, h.bucketCount, hs.size], by rw [h.bucketCount]; exact hs.pos⟩
  refine ⟨_, _, hs.hashfull_of_any_age ha, hs'.hashfull_of_any_age ha, ?_⟩
  rw [h.bucketCount]
  exact Nat.div_le_div_right (Nat.mul_le_mul_left _ h.countP_sampled_le)

end Table

/-! ## Sessions -/

/-- Whether a request leaves a table its buckets, as all do but a clear and a resize. -/
def Command.KeepsBuckets : Command → Prop
  | .clear _ | .resize _ _ => False
  | _ => True

namespace Session

variable {checks : Checks} {start s : Session}

/-- A request that is no clear and no resize fills the table up, even if it is stopped. -/
theorem fillsTo_answer (checks : Checks) (memory : Memory) (s : Session) {command : Command}
    (hk : command.KeepsBuckets) : s.table.FillsTo (s.answer checks memory command).1.table := by
  cases command with
  | probe key keep =>
    simp only [answer]
    cases s.table.probe key with
    | error fault => exact .refl s.table
    | ok p => cases keep <;> exact .refl s.table
  | write key r generation via =>
    -- It does not matter where the writer comes from.
    have hvia (w : Writer) :
        s.table.FillsTo (s.writeVia checks w key generation r).1.table := by
      rw [fst_writeVia]
      exact (Table.keptByWrites_fillsTo checks).write w key _ r s.table
    cases via with
    | none =>
      simp only [answer]
      split
      · exact .refl s.table
      · exact hvia _
    | some name =>
      simp only [answer]
      split
      · exact hvia _
      · exact .refl s.table
  | newSearch times => exact Table.fillsTo_repeat_newSearch times s.table
  | hashfull maxAges =>
    simp only [answer]
    split <;> exact .refl s.table
  | prefetch key =>
    simp only [answer]
    split <;> exact .refl s.table
  | bucket key =>
    simp only [answer]
    split <;> exact .refl s.table
  | fill first stop key r generation =>
    have hfill := (Table.keptByWrites_fillsTo checks).fill key
      (generation.getD s.table.generation) r first (stop.getD s.table.bucketCount - first) s.table
    simp only [answer]
    split
    · exact .refl s.table
    · split <;> · rename_i heq; rwa [heq] at hfill
  | census => exact .refl s.table
  | dump => exact .refl s.table
  | info => exact .refl s.table
  | clear crew => exact hk.elim
  | resize bytes crew => exact hk.elim

/-- `Uncleared checks start s`: requests that are no clear and no resize, and requests to single buckets
of the table, lead from the session `start` to the session `s`. Any of them may be stopped. -/
inductive Uncleared (checks : Checks) (start : Session) : Session → Prop
  | start : Uncleared checks start start
  | answer {s : Session} {command : Command} (run : Uncleared checks start s) (memory : Memory)
      (keeps : command.KeepsBuckets) : Uncleared checks start (s.answer checks memory command).1
  | direct {s : Session} {number : Nat} {b : Bucket} (run : Uncleared checks start s)
      (bucket : s.table.buckets[number]? = some b) (command : BucketCommand) :
      Uncleared checks start { s with table := s.table.setBucket number (b.answer checks command).1 }

/-- Without a clear or a resize a table only fills up. -/
theorem Uncleared.fillsTo (hr : start.Uncleared checks s) : start.table.FillsTo s.table := by
  induction hr with
  | start => exact .refl start.table
  | answer _ memory keeps ih => exact ih.trans (fillsTo_answer checks memory _ keeps)
  | direct _ bucket command ih =>
    exact ih.trans (Table.fillsTo_setBucket bucket (Bucket.fillsTo_answer checks _ command))

/-- An unchecked write into a slot is never stopped and empties no entry, whatever the bucket holds and
whatever its arguments are: any depth, any generation and any replacement parameters, even such as
`Replacement.validate` refuses. The other slots stay as occupied as they were.

So from any session on, and as long as there is no clear and no resize, every bucket has at least as
many occupied entries as before, through whichever writers, fresh or kept, and with whichever writes to
its slots the table was changed; and an estimate of the occupancy that lets every age count does not
decrease. -/
theorem occupancy_never_decreases :
    (∀ (p : Replacement) (key : UInt16) (generation : UInt8) (r : Record) (slot : Slot) (b : Bucket),
      let a := b.trySave .off p key generation r slot
      a.fault = none ∧
        (∀ i, (b.entry i).occupied = true → (a.bucket.entry i).occupied = true) ∧
        ∀ i ≠ slot, (a.bucket.entry i).occupied = (b.entry i).occupied) ∧
    ∀ start s : Session, start.Uncleared .off s →
      (∀ (n : Nat) (b : Bucket), start.table.buckets[n]? = some b →
        ∃ b', s.table.buckets[n]? = some b' ∧ b.occupied ≤ b'.occupied) ∧
      (start.table.Sound → ∀ maxAge : UInt8, 31 ≤ maxAge.toNat →
        ∃ before after, start.table.hashfull (some maxAge) = .ok before ∧
          s.table.hashfull (some maxAge) = .ok after ∧ before ≤ after) := by
  refine ⟨fun p key generation r slot b => ?_, fun start s hr => ⟨fun n b hb => ?_, ?_⟩⟩
  · refine ⟨by rw [Bucket.trySave_off], b.fillsTo_trySave .off p key generation r slot, ?_⟩
    intro i hi
    rw [Bucket.trySave_off]
    show ((b.save p key generation r slot).entry i).occupied = _
    rw [Bucket.entry_save_of_ne p key generation r b hi]
  · obtain ⟨b', hb', hfill⟩ := hr.fillsTo.bucket n b hb
    exact ⟨b', hb', hfill.occupied_le⟩
  · intro hs maxAge ha
    exact hr.fillsTo.hashfull_le hs ha

/-- A table with one record and a kept writer to it. The second slot is written in a generation of odd
bits, at the smallest of all depths and with parameters outside their ranges, and then the record is
worn down through the writer. -/
theorem occupancy_never_decreases_out_of_range :
    ∃ start s : Session, start.Uncleared .off s ∧ start.table.Sound ∧
      start.table.hashfull (some 31) = .ok 333 ∧ s.table.hashfull (some 31) = .ok 666 ∧
      (∃ before after, start.table.hashfull (some 31) = .ok before ∧
        s.table.hashfull (some 31) = .ok after ∧ before ≤ after) ∧
      ∃ b b', start.table.buckets[0]? = some b ∧ s.table.buckets[0]? = some b' ∧
        b.occupied ≤ b'.occupied := by
  let b := Bucket.empty.save .default 5 0 (.failedHigh ⟨3⟩ 9) 0
  let start : Session := ⟨(Table.single .default).setBucket 0 b, [("kept", ⟨0, 0⟩)]⟩
  have bucket : start.table.buckets[0]? = some b := rfl
  have hdirect : start.Uncleared .off _ :=
    Uncleared.start.direct bucket
      (.save 1 ⟨-2147483648, -2147483648, 2147483647⟩ 7 3 (.failedHigh ⟨4⟩ (-2147483648)))
  have keeps : (Command.write 5 (.failedHigh ⟨5⟩ (-2)) none (some "kept")).KeepsBuckets := trivial
  have hr : start.Uncleared .off _ := hdirect.answer (.below 0) keeps
  obtain ⟨hbuckets, hestimates⟩ := occupancy_never_decreases.2 start _ hr
  have hs : start.table.Sound := ⟨rfl, by decide⟩
  obtain ⟨b', hb', hle⟩ := hbuckets 0 _ bucket
  exact ⟨start, _, hr, hs, by decide, by decide, hestimates hs 31 (by decide), b, b', bucket, hb', hle⟩

end Session

end Transposition
