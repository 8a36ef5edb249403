import Transposition.Proofs.Access
import Transposition.Proofs.Stripes
import Transposition.Table.Clear

/-!
# Blank tables

A run begins with a table that a create, a clear or a resize has left. All three leave it blank:
every bucket empty, and the count of generations at its start. Creates and resizes end in a clear, and
for the clear (`Table.blank_clearBy`) this rests on the stripes of the workers covering the array
(`Stripe.exists_covers`), and on the stripes whose task did not run being zeroed by the caller. Which
stripes are zeroed, what stops a clear and what it reports are told here for all clears at once
(`Table.table_clearBy`, `Table.fault_clearBy`, `Table.notices_clearBy`).
-/

namespace Transposition

/-- A table as a create, a clear or a resize leaves it. -/
structure Table.Blank (t : Table) : Prop extends t.Sound where
  /-- Every bucket is empty. -/
  empty : ∀ (n : Nat) (b : Bucket), t.buckets[n]? = some b → b = Bucket.empty
  /-- No search has been started. -/
  generation : t.generation = 0

/-! ## Stripes -/

/-- Zeroing a stripe empties the buckets that it covers. -/
theorem getElem?_zeroStripe (s : Stripe) (buckets : Array Bucket) (i : Nat) :
    (zeroStripe s buckets)[i]? =
      if s.Covers i then buckets[i]?.map fun _ => Bucket.empty else buckets[i]? :=
  getElem?_fillRange Bucket.empty s.start s.length buckets i

/-- Zeroes the stripes of a list. -/
def zeroStripes (stripes : List Stripe) (buckets : Array Bucket) : Array Bucket :=
  stripes.foldl (fun bs s => zeroStripe s bs) buckets

theorem zeroStripes_append (first second : List Stripe) (buckets : Array Bucket) :
    zeroStripes (first ++ second) buckets = zeroStripes second (zeroStripes first buckets) :=
  List.foldl_append

@[simp]
theorem size_zeroStripes (stripes : List Stripe) (buckets : Array Bucket) :
    (zeroStripes stripes buckets).size = buckets.size := by
  induction stripes generalizing buckets with
  | nil => rfl
  | cons s rest ih =>
    show (zeroStripes rest (zeroStripe s buckets)).size = buckets.size
    rw [ih, zeroStripe, size_fillRange]

/-- After the stripes of a list have been zeroed, a bucket is empty if one of them covers it, and else
what it was. -/
theorem getElem?_zeroStripes (stripes : List Stripe) (buckets : Array Bucket) (i : Nat) :
    (zeroStripes stripes buckets)[i]? =
      if ∃ s ∈ stripes, s.Covers i then buckets[i]?.map fun _ => Bucket.empty
      else buckets[i]? := by
  induction stripes generalizing buckets with
  | nil => simp [zeroStripes]
  | cons s rest ih =>
    show (zeroStripes rest (zeroStripe s buckets))[i]? = _
    rw [ih, getElem?_zeroStripe]
    -- A bucket that the first stripe has emptied stays empty, whatever else covers it.
    by_cases hs : s.Covers i
    · have hs' : ∃ s' ∈ s :: rest, s'.Covers i := ⟨s, List.mem_cons_self, hs⟩
      rw [if_pos hs, if_pos hs', Option.map_map]
      exact ite_self _
    · simp [hs]

/-- The tasks of a clear zero the stripes of their workers. -/
theorem fst_runTasks {α : Type} (observe : Array Bucket → α) (size workers : Nat)
    (runs : List (Moment × Nat)) (buckets : Array Bucket) :
    (runTasks observe size workers runs buckets).1 =
      zeroStripes ((runs.map (·.2)).map (Stripe.ofWorker size workers)) buckets := by
  induction runs generalizing buckets with
  | nil => rfl
  | cons run rest ih => exact ih _

/-- The caller zeroes the stripes of a list up to the one at which its counter runs over. It counts all
of them if the counter does not. -/
theorem takeOver_eq (size workers : Nat) (left : List Nat) {taken : Nat} (h : taken < counterLimit)
    (buckets : Array Bucket) :
    takeOver size workers left taken buckets =
      (zeroStripes ((left.take (counterLimit - taken)).map (Stripe.ofWorker size workers)) buckets,
        if taken + left.length < counterLimit then .ok (taken + left.length)
        else .error .addOverflow) := by
  induction left generalizing taken buckets with
  | nil => simp [takeOver, zeroStripes, h]
  | cons worker rest ih =>
    have hlength : taken + (worker :: rest).length = taken + 1 + rest.length := by
      rw [List.length_cons]
      omega
    -- The first stripe is zeroed in any case, and so many more before the counter runs over.
    obtain ⟨more, hmore⟩ : ∃ more, counterLimit - taken = more + 1 :=
      ⟨counterLimit - taken - 1, by omega⟩
    unfold takeOver
    dsimp only
    rw [hlength, hmore, List.take_succ_cons, List.map_cons]
    split
    · rename_i hnext
      have hrest : counterLimit - (taken + 1) = more := by omega
      rw [ih hnext, hrest]
      rfl
    · rename_i hlast
      obtain rfl : more = 0 := by omega
      rw [if_neg (by omega), List.take_zero]
      rfl

/-! ## What a clear zeroes -/

/-- What stops a clear by so many workers, of whom so many leave their task undone, if anything does. -/
def clearFault? (workers left : Nat) : Option Fault :=
  if marksLimit < workers then some .badLayout
  else if counterLimit ≤ left then some .addOverflow
  else none

/-- Nothing stops a clear exactly if there are not too many workers and not too many of them leave their
task undone. -/
theorem clearFault?_eq_none_iff {workers left : Nat} :
    clearFault? workers left = none ↔ workers ≤ marksLimit ∧ left < counterLimit := by
  unfold clearFault?
  split
  · simp
    omega
  · split
    · simp
      omega
    · simp
      omega

/-- The stripes that a clear zeroes, if the tasks of the workers in a list run. -/
def zeroedStripes (count workers : Nat) (done : List Nat) : List Stripe :=
  if workers = 0 then [⟨0, count⟩]
  else if marksLimit < workers then []
  else (done ++ (leftOver workers done).take counterLimit).map (Stripe.ofWorker count workers)

/-- Where nothing stops a clear, it zeroes every position of the array. -/
theorem exists_zeroed {count workers n : Nat} {done : List Nat}
    (hf : clearFault? workers (leftOver workers done).length = none) (hn : n < count) :
    ∃ s ∈ zeroedStripes count workers done, s.Covers n := by
  obtain ⟨hmarks, hcounter⟩ := clearFault?_eq_none_iff.mp hf
  unfold zeroedStripes
  split
  · exact ⟨_, List.mem_singleton.mpr rfl, Nat.zero_le n, by simpa [Stripe.stop] using hn⟩
  · rename_i hw
    -- The worker whose stripe covers `n` has run its task, or it is left over.
    obtain ⟨w, hlt, hcov⟩ := Stripe.exists_covers (Nat.pos_of_ne_zero hw) hn
    rw [if_neg (by omega), List.take_of_length_le (by omega)]
    refine ⟨_, List.mem_map.mpr ⟨w, ?_, rfl⟩, hcov⟩
    by_cases hd : w ∈ done <;> simp [leftOver, hlt, hd]

namespace Table

variable {α : Type} (observe : Array Bucket → α) (workers : Nat) (runs : List (Moment × Nat))

/-- A clear by workers who can be marked: it zeroes the stripes of the tasks that run, and then those that
are left over, up to the one that is not counted any more. It is stopped there or reports what it did. -/
theorem clearBy_of_marked {workers : Nat} (hsome : workers ≠ 0) (hmarks : workers ≤ marksLimit)
    (t : Table) :
    t.clearBy observe workers runs =
      let done := runs.map (·.2)
      let left := leftOver workers done
      let stripes := (done ++ left.take counterLimit).map (Stripe.ofWorker t.bucketCount workers)
      let reported :=
        (if left.length = 0 then [] else [.stripesTakenOver left.length workers]) ++
          [.cleared t.bucketCount workers]
      ⟨{ t with buckets := zeroStripes stripes t.buckets, generation := 0 },
        (runTasks observe t.bucketCount workers runs t.buckets).2,
        if left.length < counterLimit then reported else [],
        if left.length < counterLimit then none else some .addOverflow⟩ := by
  unfold clearBy
  simp only [if_neg hsome, if_neg (Nat.not_lt.mpr hmarks), fst_runTasks, List.map_append,
    zeroStripes_append, takeOver_eq _ _ _ (show 0 < counterLimit by decide), Nat.zero_add, Nat.sub_zero]
  by_cases hcounter : (leftOver workers (runs.map (·.2))).length < counterLimit
  · simp only [if_pos hcounter]
  · simp only [if_neg hcounter]

/-- A clear by more workers than can be marked zeroes nothing but the generation. -/
theorem clearBy_of_unmarked {workers : Nat} (hmarks : marksLimit < workers) (t : Table) :
    t.clearBy observe workers runs = ⟨{ t with generation := 0 }, [], [], some .badLayout⟩ := by
  unfold clearBy
  rw [if_neg (Nat.ne_of_gt (Nat.zero_lt_of_lt hmarks)), if_pos hmarks]

/-- A clear zeroes buckets and the generation, and leaves all else, even if it is stopped. -/
theorem table_clearBy (t : Table) :
    (t.clearBy observe workers runs).table =
      { t with
        buckets := zeroStripes (zeroedStripes t.bucketCount workers (runs.map (·.2))) t.buckets
        generation := 0 } := by
  unfold zeroedStripes
  by_cases hnone : workers = 0
  · subst hnone
    rfl
  rw [if_neg hnone]
  by_cases hmarks : marksLimit < workers
  · rw [clearBy_of_unmarked _ _ hmarks, if_pos hmarks]
    rfl
  · rw [clearBy_of_marked _ _ hnone (Nat.not_lt.mp hmarks), if_neg hmarks]

/-- Only the number of workers and the number of tasks left undone can stop a clear. -/
theorem fault_clearBy (t : Table) :
    (t.clearBy observe workers runs).fault =
      clearFault? workers (leftOver workers (runs.map (·.2))).length := by
  by_cases hnone : workers = 0
  · subst hnone
    rfl
  unfold clearFault?
  by_cases hmarks : marksLimit < workers
  · rw [clearBy_of_unmarked _ _ hmarks, if_pos hmarks]
  · rw [clearBy_of_marked _ _ hnone (Nat.not_lt.mp hmarks), if_neg hmarks]
    by_cases hcounter : (leftOver workers (runs.map (·.2))).length < counterLimit
    · rw [if_neg (Nat.not_le.mpr hcounter)]
      exact if_pos hcounter
    · rw [if_pos (Nat.not_lt.mp hcounter)]
      exact if_neg hcounter

/-- A clear that is stopped reports nothing. Otherwise the caller reports how many stripes it has zeroed,
if any, and that the table is cleared; without workers it reports neither. -/
theorem notices_clearBy (t : Table) :
    (t.clearBy observe workers runs).notices =
      if (t.clearBy observe workers runs).fault = none ∧ workers ≠ 0 then
        (if (leftOver workers (runs.map (·.2))).length = 0 then []
          else [.stripesTakenOver (leftOver workers (runs.map (·.2))).length workers]) ++
        [.cleared t.bucketCount workers]
      else [] := by
  by_cases hnone : workers = 0
  · rw [if_neg fun hand => hand.2 hnone]
    subst hnone
    rfl
  by_cases hmarks : marksLimit < workers
  · rw [clearBy_of_unmarked _ _ hmarks]
    exact (if_neg fun hand => Option.some_ne_none _ hand.1).symm
  · rw [clearBy_of_marked _ _ hnone (Nat.not_lt.mp hmarks)]
    by_cases hcounter : (leftOver workers (runs.map (·.2))).length < counterLimit
    · simp only [if_pos hcounter]
      exact (if_pos ⟨trivial, hnone⟩).symm
    · simp only [if_neg hcounter]
      exact (if_neg fun hand => Option.some_ne_none _ hand.1).symm

/-- A clear that is not stopped leaves a sound table blank, whichever tasks run and in whichever
order. -/
theorem blank_clearBy {t : Table} (h : t.Sound)
    (hf : (t.clearBy observe workers runs).fault = none) :
    (t.clearBy observe workers runs).table.Blank := by
  rw [fault_clearBy] at hf
  rw [table_clearBy]
  refine ⟨⟨?_, h.pos⟩, fun n b hb => ?_, rfl⟩
  · exact (size_zeroStripes _ _).trans h.size
  · have hn : n < t.bucketCount := by
      have hlt := (Array.getElem?_eq_some_iff.mp hb).1
      rwa [size_zeroStripes, h.size] at hlt
    rw [getElem?_zeroStripes, if_pos (exists_zeroed hf hn)] at hb
    obtain ⟨-, -, rfl⟩ := Option.map_eq_some_iff.mp hb
    rfl

/-- A clear leaves a blank table what it is, even if it is stopped. -/
theorem Blank.table_clearBy {t : Table} (h : t.Blank) :
    (t.clearBy observe workers runs).table = t := by
  have hbuckets : zeroStripes (zeroedStripes t.bucketCount workers (runs.map (·.2))) t.buckets =
      t.buckets := by
    apply Array.ext_getElem?
    intro n
    rw [getElem?_zeroStripes]
    cases hb : t.buckets[n]? with
    | none => exact ite_self _
    | some b =>
      rw [h.empty n b hb]
      exact ite_self _
  rw [Table.table_clearBy, hbuckets, ← h.generation]

/-- The table of one empty bucket that holds no block. -/
def single (params : Replacement) : Table := ⟨.single, #[Bucket.empty], 1, 0, params⟩

/-- A table of one empty bucket is blank. -/
theorem blank_single (params : Replacement) : (single params).Blank := by
  refine ⟨⟨rfl, Nat.one_pos⟩, ?_, rfl⟩
  intro n b hb
  have hn : n < 1 := (Array.getElem?_eq_some_iff.mp hb).1
  obtain rfl : n = 0 := by omega
  exact (Option.some.inj hb).symm

end Table

end Transposition
