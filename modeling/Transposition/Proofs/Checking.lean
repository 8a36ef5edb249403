import Transposition.Proofs.Lifetime
import Transposition.Session.Bucket

/-!
# Checks only stop

A bucket or a table with its checks on does what it does with them off, until a check stops it. No
answer depends on whether the checks are on: if no request of a session with checks was stopped, the
same session without them gives the same answers and ends in the same state.

When a write is stopped is said outright (`Bucket.fault_trySave_on_iff`): the generation has low bits
set, or the depth is not storable, or the entry yields to the write and one of the two scores does not
fit. The last condition depends on what the entry holds, and so on the history of the table; it is the
condition of an overwrite, so a refused write stores no score and its scores are not looked at.
-/

namespace Transposition

/-! ## What stops a write -/

namespace Entry

/-- The arguments of a write fail their check exactly if the generation has low bits set or the depth
is not storable. -/
theorem argumentFault?_eq_none_iff (generation : UInt8) (r : Record) :
    argumentFault? .on generation r = none ↔ generation.toNat % 8 = 0 ∧ r.depth.Storable := by
  rw [← lowBits_eq_zero_iff]
  unfold argumentFault?
  split_ifs <;> simp_all

/-- The scores of a write pass their check exactly if both fit. -/
theorem scoreFault?_eq_none_iff (r : Record) :
    scoreFault? .on r = none ↔ r.value.Fits ∧ r.eval.Fits := by
  unfold scoreFault?
  split_ifs <;> simp_all

end Entry

namespace Bucket

section TrySave

variable (p : Replacement) (key : UInt16) (generation : UInt8) (r : Record) (slot : Slot)
  (b : Bucket)

/-- Without checks nothing stops a write, and it does what an unchecked write does. -/
theorem trySave_off :
    b.trySave .off p key generation r slot = ⟨b.save p key generation r slot, none⟩ := by
  unfold trySave
  rw [show Entry.argumentFault? .off generation r = none from rfl,
    show Entry.scoreFault? .off r = none from rfl]
  cases (b.entry slot).verdict p key generation r <;> rfl

variable {p key generation r slot b}

/-- A write that the checks do not stop does what it does without them. -/
theorem trySave_on_of_fault (h : (b.trySave .on p key generation r slot).fault = none) :
    b.trySave .on p key generation r slot = b.trySave .off p key generation r slot := by
  rw [trySave_off, ← bucket_trySave h, ← h]

variable (p key generation r slot b)

/-- The checks stop a write exactly if the generation has low bits set, or the depth is not storable,
or the entry yields to the write and a score of it does not fit. -/
theorem fault_trySave_on_iff :
    (b.trySave .on p key generation r slot).fault ≠ none ↔
      generation.toNat % 8 ≠ 0 ∨ ¬r.depth.Storable ∨
        (b.entry slot).Yields p key generation r ∧ (¬r.value.Fits ∨ ¬r.eval.Fits) := by
  have hargs := Entry.argumentFault?_eq_none_iff generation r
  have hscores := Entry.scoreFault?_eq_none_iff r
  have hverdict := Entry.verdict_eq_overwrite_iff p key generation r (b.entry slot)
  unfold trySave
  cases ha : Entry.argumentFault? .on generation r with
  | some fault =>
    -- The arguments are looked at first, so this stops the write whatever the entry holds.
    rw [ha] at hargs
    have hbad : ¬(generation.toNat % 8 = 0 ∧ r.depth.Storable) := fun h => by
      cases hargs.mpr h
    refine ⟨fun _ => ?_, fun _ h => by cases h⟩
    by_cases hg : generation.toNat % 8 = 0
    · exact Or.inr (Or.inl fun hd => hbad ⟨hg, hd⟩)
    · exact Or.inl hg
  | none =>
    obtain ⟨hg, hd⟩ := hargs.mp ha
    have hgood : (generation.toNat % 8 ≠ 0 ∨ ¬r.depth.Storable ∨
        (b.entry slot).Yields p key generation r ∧ (¬r.value.Fits ∨ ¬r.eval.Fits)) ↔
          (b.entry slot).Yields p key generation r ∧ (¬r.value.Fits ∨ ¬r.eval.Fits) := by
      simp only [ne_eq, hg, hd, not_true_eq_false, false_or]
    rw [hgood, ← hverdict, ← not_and_or, ← hscores]
    cases hs : Entry.scoreFault? .on r <;>
      cases hv : (b.entry slot).verdict p key generation r <;> simp

end TrySave

end Bucket

/-! ## Sessions with a bucket -/

/-- The fault that an answer of a bucket tells of. -/
def BucketAnswer.fault? : BucketAnswer → Option Fault
  | .stopped fault _ => some fault
  | _ => none

namespace Bucket

/-- A slot that the checks accept is a slot without them. -/
theorem slot?_off_of_on {index : Nat} {i : Slot} (h : slot? .on index = .ok i) :
    slot? .off index = .ok i := by
  unfold slot? at h ⊢
  split at h
  · rename_i hlt
    rw [dif_pos hlt]
    exact h
  · cases h

/-- A flag that the checks accept is a flag without them. -/
theorem flagIndex?_off_of_on {direction : ShiftDirection} {index i : Nat}
    (h : flagIndex? .on direction index = .ok i) : flagIndex? .off direction index = .ok i := by
  unfold flagIndex? at h ⊢
  dsimp only at h ⊢
  split at h
  · rename_i hlt
    have hwidth : index < Flags.width := Nat.lt_trans hlt (by decide)
    rw [if_pos hwidth]
    exact h
  · cases h

/-- The ages that are told under checks are those that are told without them. -/
theorem mapM_age_off_of_on {index : Nat} {e : Slot → UInt8 → Nat} {generations : List UInt8}
    {ages : List Nat}
    (h : generations.mapM (fun g => (slot? .on index).map fun i => e i g) = .ok ages) :
    generations.mapM (fun g => (slot? .off index).map fun i => e i g) = .ok ages := by
  cases hs : slot? .on index with
  | ok i =>
    rw [hs] at h
    rw [slot?_off_of_on hs]
    exact h
  | error fault =>
    -- Only an empty list of generations is answered without looking the slot up.
    cases generations with
    | nil => exact h
    | cons g rest =>
      rw [hs, List.mapM_cons] at h
      cases h

/-- A request to a bucket that the checks do not stop is answered as without them. -/
theorem answer_off_of_on {b : Bucket} {command : BucketCommand}
    (h : (b.answer .on command).2.fault? = none) : b.answer .off command = b.answer .on command := by
  cases command with
  | save index params key generation record =>
    cases hs : slot? .on index with
    | error fault =>
      simp only [answer, hs] at h
      cases h
    | ok i =>
      cases hf : (b.trySave .on params key generation record i).fault with
      | some fault =>
        simp only [answer, hs, hf] at h
        cases h
      | none =>
        have heq := trySave_on_of_fault hf
        rw [heq] at hf
        simp only [answer, hs, slot?_off_of_on hs, heq]
  | read index =>
    cases hs : slot? .on index with
    | error fault =>
      simp only [answer, hs] at h
      cases h
    | ok i => simp only [answer, hs, slot?_off_of_on hs]
  | age index generations =>
    cases hm : generations.mapM fun g => (slot? .on index).map fun i => (b.entry i).age g with
    | error fault =>
      simp only [answer, hm] at h
      cases h
    | ok ages => simp only [answer, hm, mapM_age_off_of_on hm]
  | setFlag index flag =>
    cases hs : flagIndex? .on .left index with
    | error fault =>
      simp only [answer, hs] at h
      cases h
    | ok i => simp only [answer, hs, flagIndex?_off_of_on hs]
  | getFlag index =>
    cases hs : flagIndex? .on .right index with
    | error fault =>
      simp only [answer, hs] at h
      cases h
    | ok i => simp only [answer, hs, flagIndex?_off_of_on hs]
  | dump => rfl

/-- A session with a bucket in which the checks stop nothing goes as without them. -/
theorem answerAll_off_of_on {b : Bucket} {commands : List BucketCommand}
    (h : ∀ a ∈ (b.answerAll .on commands).2, a.fault? = none) :
    b.answerAll .off commands = b.answerAll .on commands := by
  induction commands generalizing b with
  | nil => rfl
  | cons command rest ih =>
    have hfirst : (b.answer .on command).2.fault? = none := h _ List.mem_cons_self
    have hrest : ∀ a ∈ ((b.answer .on command).1.answerAll .on rest).2, a.fault? = none :=
      fun a ha => h a (List.mem_cons_of_mem _ ha)
    unfold answerAll
    rw [answer_off_of_on hfirst]
    simp only [ih hrest]

end Bucket

/-! ## Sessions with a table -/

namespace Table

variable {t : Table}

/-- A write that the checks do not stop does what it does without them. -/
theorem write_off_of_on {w : Writer} {key : UInt64} {generation : UInt8} {r : Record}
    (h : (t.write .on w key generation r).2 = none) :
    t.write .off w key generation r = t.write .on w key generation r := by
  unfold write at h ⊢
  cases hb : t.bucketAt w.bucket with
  | error fault =>
    simp only [hb] at h
    cases h
  | ok b =>
    simp only [hb] at h
    simp only [Bucket.trySave_on_of_fault h]

/-- Writes into the slots of a bucket that the checks do not stop do what they do without them. -/
theorem fillSlots_off_of_on {number : Nat} {key : UInt16} {generation : UInt8} {r : Record}
    {list : List Slot} (h : (t.fillSlots .on number key generation r list).2 = none) :
    t.fillSlots .off number key generation r list =
      t.fillSlots .on number key generation r list := by
  induction list generalizing t with
  | nil => rfl
  | cons slot rest ih =>
    unfold fillSlots at h ⊢
    cases hb : t.bucketAt number with
    | error fault => rfl
    | ok b =>
      simp only [hb] at h
      cases hf : (b.trySave .on t.params (key + UInt16.ofNat slot.val) generation r slot).fault with
      | some fault =>
        simp only [hf] at h
        cases h
      | none =>
        have heq := Bucket.trySave_on_of_fault hf
        simp only [hf] at h
        have hrest := ih h
        rw [heq] at hf hrest
        simp only [heq, hf]
        exact hrest

/-- Writes into every slot of some buckets that the checks do not stop do what they do without
them. -/
theorem fill_off_of_on {key : UInt16} {generation : UInt8} {r : Record} {first count : Nat}
    (h : (t.fill .on key generation r first count).2 = none) :
    t.fill .off key generation r first count = t.fill .on key generation r first count := by
  induction count generalizing first t with
  | zero => rfl
  | succ count ih =>
    unfold fill at h ⊢
    cases hs : t.fillSlots .on first key generation r slots with
    | mk t' fault? =>
      cases fault? with
      | some fault =>
        simp only [hs] at h
        cases h
      | none =>
        have heq := fillSlots_off_of_on (by rw [hs])
        simp only [hs] at h
        simp only [heq, hs]
        exact ih h

end Table

namespace Session

variable {s : Session} {memory : Memory}

/-- A write through a writer that the checks do not stop is answered as without them. -/
theorem writeVia_off_of_on {w : Writer} {key : UInt64} {generation : Option UInt8} {r : Record}
    (h : (s.writeVia .on w key generation r).2.fault? = none) :
    s.writeVia .off w key generation r = s.writeVia .on w key generation r := by
  have hnone : (s.table.write .on w key (generation.getD s.table.generation) r).2 = none := by
    unfold writeVia at h
    dsimp only at h
    split at h
    · cases h
    · exact h
  unfold writeVia
  simp only [Table.write_off_of_on hnone]

/-- A request to a table that the checks do not stop is answered as without them. -/
theorem answer_off_of_on {command : Command} (h : (s.answer .on memory command).2.fault? = none) :
    s.answer .off memory command = s.answer .on memory command := by
  cases command with
  | write key r generation via =>
    cases via with
    | none =>
      cases hp : s.table.probe key with
      | error fault => simp only [answer, hp]
      | ok p =>
        simp only [answer, hp] at h ⊢
        exact writeVia_off_of_on h
    | some name =>
      cases hw : s.writer? name with
      | none => simp only [answer, hw]
      | some w =>
        simp only [answer, hw] at h ⊢
        exact writeVia_off_of_on h
  | fill first stop key r generation =>
    simp only [answer] at h ⊢
    cases hpart : Fault.ofPart? first (stop.getD s.table.bucketCount) s.table.bucketCount with
    | some fault => rfl
    | none =>
      simp only [hpart] at h ⊢
      have hnone : (s.table.fill .on key (generation.getD s.table.generation) r first
          (stop.getD s.table.bucketCount - first)).2 = none := by
        split at h
        · cases h
        · rename_i heq
          rw [heq]
      rw [Table.fill_off_of_on hnone]
  | probe key keep => rfl
  | newSearch times => rfl
  | hashfull maxAges => rfl
  | prefetch key => rfl
  | bucket key => rfl
  | census => rfl
  | dump => rfl
  | info => rfl
  | clear crew => rfl
  | resize bytes crew => rfl

/-- A session with a table in which the checks stop nothing goes as without them. -/
theorem answerAll_off_of_on {commands : List Command}
    (h : ∀ a ∈ (s.answerAll .on memory commands).2, a.fault? = none) :
    s.answerAll .off memory commands = s.answerAll .on memory commands := by
  induction commands generalizing s with
  | nil => rfl
  | cons command rest ih =>
    have hfirst : (s.answer .on memory command).2.fault? = none := h _ List.mem_cons_self
    have hrest : ∀ a ∈ ((s.answer .on memory command).1.answerAll .on memory rest).2,
        a.fault? = none := fun a ha => h a (List.mem_cons_of_mem _ ha)
    unfold answerAll
    rw [answer_off_of_on hfirst]
    simp only [ih hrest]

end Session

/-! ## With and without checks -/

/-- For every sequence of requests to a bucket, and for every sequence of requests to a table: if
nothing stops it with checks, then without them all answers and the state at the end are the same. And
for every bucket, slot and write: with checks it is stopped exactly if the generation has one of its
low bits set, or the depth is outside the storable range, or the entry yields to the write and the value
or the evaluation does not fit 16 bits; and without checks it is not stopped. -/
theorem unchecked_answers_and_exact_stops :
    (∀ (b : Bucket) (commands : List BucketCommand),
      (∀ a ∈ (b.answerAll .on commands).2, a.fault? = none) →
        b.answerAll .off commands = b.answerAll .on commands) ∧
    (∀ (memory : Memory) (s : Session) (commands : List Command),
      (∀ a ∈ (s.answerAll .on memory commands).2, a.fault? = none) →
        s.answerAll .off memory commands = s.answerAll .on memory commands) ∧
    ∀ (b : Bucket) (slot : Nat) (params : Replacement) (key : UInt16) (generation : UInt8)
      (r : Record) (h : slot < entryCount),
      ((b.answer .on (.save slot params key generation r)).2.fault? ≠ none ↔
        generation.toNat % 8 ≠ 0 ∨ ¬r.depth.Storable ∨
          (b.entry ⟨slot, h⟩).Yields params key generation r ∧ (¬r.value.Fits ∨ ¬r.eval.Fits)) ∧
      (b.answer .off (.save slot params key generation r)).2.fault? = none := by
  refine ⟨fun b commands h => Bucket.answerAll_off_of_on h,
    fun memory s commands h => Session.answerAll_off_of_on h,
    fun b slot params key generation r h => ⟨?_, ?_⟩⟩
  · have hslot : Bucket.slot? .on slot = .ok ⟨slot, h⟩ := dif_pos h
    have hfault : (b.answer .on (.save slot params key generation r)).2.fault? =
        (b.trySave .on params key generation r ⟨slot, h⟩).fault := by
      simp only [Bucket.answer, hslot]
      cases hf : (b.trySave .on params key generation r ⟨slot, h⟩).fault <;> rfl
    rw [hfault]
    exact b.fault_trySave_on_iff params key generation r ⟨slot, h⟩
  · have hslot : Bucket.slot? .off slot = .ok ⟨slot, h⟩ := dif_pos h
    simp only [Bucket.answer, hslot, Bucket.trySave_off]
    rfl

/-- A record of depth ten and a shallow write of a value that does not fit. The record resists it, so
the checks do not stop it, and the session goes on as without them; after a new search the same write
would overwrite, and is stopped. -/
theorem unchecked_answers_and_exact_stops_refused_value :
    let shallow : Record := ⟨⟨7⟩, ⟨40000⟩, Score.zero, 2, .lower, false, false⟩
    let commands : List Command := [.newSearch 1, .write 5 (.failedHigh Move.none 10) none none,
      .write 5 shallow none none]
    let b := Bucket.empty.save .default 5 8 (.failedHigh Move.none 10) 0
    (∀ a ∈ ((Session.ofTable (.single .default)).answerAll .on (.below 0) commands).2,
      a.fault? = none) ∧
    (Session.ofTable (.single .default)).answerAll .off (.below 0) commands =
      (Session.ofTable (.single .default)).answerAll .on (.below 0) commands ∧
    ¬(b.answer .on (.save 0 .default 5 8 shallow)).2.fault? ≠ none ∧
    (b.answer .on (.save 0 .default 5 16 shallow)).2.fault? ≠ none := by
  intro shallow commands b
  obtain ⟨-, htable, hsave⟩ := unchecked_answers_and_exact_stops
  have hnone : ∀ a ∈ ((Session.ofTable (.single .default)).answerAll .on (.below 0) commands).2,
      a.fault? = none := by decide
  refine ⟨hnone, htable _ _ _ hnone, ?_, ?_⟩
  · rw [(hsave b 0 .default 5 8 shallow (by decide)).1]
    decide
  · rw [(hsave b 0 .default 5 16 shallow (by decide)).1]
    decide

end Transposition
