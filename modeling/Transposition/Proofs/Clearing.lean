import Transposition.Proofs.Blank

/-!
# What a clear leaves and reports

A clear that returns leaves the same table whatever its crew does: every bucket empty, generation zero,
and all else as it was (`Table.emptied`). What it reports depends on how many workers leave their task
undone, and on nothing else: not on when the others run theirs, nor in which order (`Crew.Follows`). The
stripes that the caller zeroes are exactly those of the workers that leave theirs
(`Crew.length_leftOver`).

A clear does not return if its crew has more workers than can be marked, or if `2 ^ 31` of them leave
their task undone (`Crew.fault?`). Then part of the table may keep what it holds
(`Table.exists_kept_bucket`).
-/

namespace Transposition

/-! ## The table -/

namespace Table

/-- The table with every bucket empty and generation zero, and all else as it is. -/
def emptied (t : Table) : Table :=
  { t with buckets := Array.replicate t.bucketCount Bucket.empty, generation := 0 }

/-- The buckets of a blank table. -/
theorem Blank.buckets_eq {t : Table} (h : t.Blank) :
    t.buckets = Array.replicate t.bucketCount Bucket.empty := by
  apply Array.ext
  · rw [h.size, Array.size_replicate]
  · intro i hi _
    rw [Array.getElem_replicate]
    exact h.empty i _ (Array.getElem?_eq_getElem hi)

/-- Whichever tasks run, and in whichever order, a clear that is not stopped empties the table. -/
theorem table_clearBy_of_none {α : Type} {observe : Array Bucket → α} {workers : Nat}
    {runs : List (Moment × Nat)} {t : Table} (h : t.Sound)
    (hf : (t.clearBy observe workers runs).fault = none) :
    (t.clearBy observe workers runs).table = t.emptied := by
  have hblank := (blank_clearBy observe workers runs h hf).buckets_eq
  rw [table_clearBy] at hblank ⊢
  dsimp only at hblank
  rw [hblank]
  rfl

end Table

/-! ## The crew -/

/-- Whether a worker that treats its task like this leaves it undone. -/
def Handling.leaves : Handling → Bool
  | .run => false
  | .defer => false
  | .drop => true
  | .reject => true

namespace Crew

/-- How each worker of a crew treats its task. Threads accept theirs, and have run it by the time they
have been waited for. -/
def handling : Crew → List Handling
  | threads count => List.replicate (max 1 count) .defer
  | plan handling => handling

/-- The tasks of a list are those that the workers of a crew run, each at its moment. Their order is
left open. -/
def Follows (crew : Crew) (runs : List (Moment × Nat)) : Prop :=
  ∀ worker, ((.run, worker) ∈ runs ↔ crew.handling[worker]? = some .run) ∧
    ((.wait, worker) ∈ runs ↔ crew.handling[worker]? = some .defer)

/-- A crew has a worker for each treatment of a task. -/
theorem length_handling (crew : Crew) : crew.handling.length = crew.size := by
  cases crew with
  | threads count => exact List.length_replicate
  | plan handling => rfl

/-- The workers that treat their tasks in a given way are found by their numbers. -/
theorem mem_treating {h : Handling} {handling : List Handling} {worker : Nat} :
    worker ∈ treating h handling ↔ handling[worker]? = some h := by
  unfold treating
  rw [List.mem_filterMap]
  constructor
  · rintro ⟨⟨own, number⟩, hmem, hif⟩
    rw [List.mem_zipIdx_iff_getElem?] at hmem
    by_cases hown : own = h
    · simp only [if_pos hown, Option.some.injEq] at hif
      rw [← hif, hmem, hown]
    · simp [hown] at hif
  · intro hget
    exact ⟨(h, worker), List.mem_zipIdx_iff_getElem?.mpr hget, if_pos rfl⟩

/-- The order in which a crew runs its tasks is one of those left open. -/
theorem follows_runs (crew : Crew) : crew.Follows crew.runs := by
  intro worker
  cases crew with
  | threads count =>
    simp only [runs, handling, List.mem_map, List.mem_range, Prod.mk.injEq, reduceCtorEq, false_and,
      and_false, exists_false, true_and, exists_eq_right, List.getElem?_replicate]
    split <;> simp_all
  | plan list => simp [runs, handling, mem_treating]

/-- The workers whose tasks run are those that do not leave theirs. -/
theorem mem_runs_iff {crew : Crew} {runs : List (Moment × Nat)} (hf : crew.Follows runs)
    {worker : Nat} {h : Handling} (hw : crew.handling[worker]? = some h) :
    worker ∈ runs.map (·.2) ↔ h.leaves = false := by
  have hrun := (hf worker).1
  have hwait := (hf worker).2
  rw [hw, Option.some.injEq] at hrun hwait
  have hmoment : worker ∈ runs.map (·.2) ↔ (.run, worker) ∈ runs ∨ (.wait, worker) ∈ runs := by
    rw [List.mem_map]
    constructor
    · rintro ⟨⟨moment, number⟩, hmem, rfl⟩
      cases moment with
      | run => exact Or.inl hmem
      | wait => exact Or.inr hmem
    · rintro (hmem | hmem)
      · exact ⟨_, hmem, rfl⟩
      · exact ⟨_, hmem, rfl⟩
  rw [hmoment, hrun, hwait]
  cases h <;> simp [Handling.leaves]

/-- The caller zeroes as many stripes as there are workers that leave their task undone. -/
theorem length_leftOver {crew : Crew} {runs : List (Moment × Nat)} (hf : crew.Follows runs) :
    (leftOver crew.size (runs.map (·.2))).length = crew.handling.countP Handling.leaves := by
  have hlist : crew.handling =
      (List.range crew.size).map fun worker => crew.handling[worker]?.getD .run := by
    apply List.ext_getElem
    · rw [List.length_map, List.length_range, length_handling]
    · intro i hi _
      rw [List.getElem_map, List.getElem_range, List.getElem?_eq_getElem hi, Option.getD_some]
  rw [hlist, List.countP_map, leftOver, ← List.countP_eq_length_filter]
  apply List.countP_congr
  intro worker hw
  have hlt : worker < crew.handling.length := by
    rw [length_handling]
    exact List.mem_range.mp hw
  have hget := List.getElem?_eq_getElem hlt
  have hiff := mem_runs_iff hf hget
  simp only [Function.comp_apply, hget, Option.getD_some, Bool.not_eq_true', ← Bool.not_eq_true,
    List.contains_iff_mem, hiff]
  simp

/-- What stops a clear by a crew, if anything does. -/
def fault? (crew : Crew) : Option Fault :=
  clearFault? crew.size (crew.handling.countP Handling.leaves)

/-- A crew has at least as many workers as leave their task undone. -/
theorem countP_leaves_le (crew : Crew) : crew.handling.countP Handling.leaves ≤ crew.size := by
  rw [← length_handling]
  exact List.countP_le_length

/-- Nothing stops a clear by fewer workers than the counter can count. -/
theorem fault?_eq_none_of_lt {crew : Crew} (h : crew.size < counterLimit) : crew.fault? = none := by
  have hmarks : counterLimit ≤ marksLimit := by decide
  have hleft := crew.countP_leaves_le
  exact clearFault?_eq_none_iff.mpr ⟨by omega, by omega⟩

/-- Threads leave no task undone. -/
theorem countP_leaves_threads (count : Nat) :
    (threads count).handling.countP Handling.leaves = 0 := by
  simp [handling, Handling.leaves]

/-- Nothing stops a clear by threads, unless there are more than can be marked. -/
theorem fault?_threads {count : Nat} (h : count ≤ marksLimit) : (threads count).fault? = none := by
  have hsize : (threads count).size ≤ marksLimit := by
    show max 1 count ≤ marksLimit
    have hone : 1 ≤ marksLimit := by decide
    omega
  unfold fault?
  rw [countP_leaves_threads]
  exact clearFault?_eq_none_iff.mpr ⟨hsize, by decide⟩

end Crew

/-! ## Clears with a crew -/

namespace Table

/-- In whichever order the tasks of a crew run, the crew alone decides what stops the clear. -/
theorem fault_clearBy_of_follows {α : Type} (observe : Array Bucket → α) {crew : Crew}
    {runs : List (Moment × Nat)} (hf : crew.Follows runs) (t : Table) :
    (t.clearBy observe crew.size runs).fault = crew.fault? := by
  rw [fault_clearBy, Crew.length_leftOver hf]
  rfl

/-- The crew alone decides what stops a clear. -/
theorem fault_clearObserved {α : Type} (observe : Array Bucket → α) (crew : Crew) (t : Table) :
    (t.clearObserved observe crew).fault = crew.fault? :=
  fault_clearBy_of_follows observe crew.follows_runs t

/-- The crew alone decides what stops a clear. -/
theorem fault_clear (crew : Crew) (t : Table) : (t.clear crew).fault = crew.fault? :=
  fault_clearObserved _ crew t

/-- A clear that is not stopped reports how many workers of its crew leave their task undone, if any do,
and that the table is cleared, if there is a worker. -/
theorem notices_clearBy_of_follows {α : Type} (observe : Array Bucket → α) {crew : Crew}
    {runs : List (Moment × Nat)} (hf : crew.Follows runs) (hnone : crew.fault? = none) (t : Table) :
    (t.clearBy observe crew.size runs).notices =
      (if crew.handling.countP Handling.leaves = 0 then []
        else [.stripesTakenOver (crew.handling.countP Handling.leaves) crew.size]) ++
      (if crew.size = 0 then [] else [.cleared t.bucketCount crew.size]) := by
  rw [notices_clearBy, fault_clearBy_of_follows observe hf, Crew.length_leftOver hf]
  by_cases hsize : crew.size = 0
  · have hzero : crew.handling.countP Handling.leaves = 0 := by
      have hle := crew.countP_leaves_le
      omega
    simp [hsize, hzero]
  · rw [if_pos ⟨hnone, hsize⟩, if_neg hsize]

/-- A clear by threads reports that it is done, and nothing else. -/
theorem notices_clear_threads {count : Nat} (h : count ≤ marksLimit) (t : Table) :
    (t.clear (.threads count)).notices = [.cleared t.bucketCount (max 1 count)] := by
  have hnotices : (t.clear (.threads count)).notices = _ :=
    notices_clearBy_of_follows (fun _ => ()) (Crew.follows_runs (.threads count))
      (Crew.fault?_threads h) t
  have hsize : Crew.size (.threads count) ≠ 0 := by
    show max 1 count ≠ 0
    omega
  rw [hnotices, Crew.countP_leaves_threads, if_pos rfl, if_neg hsize]
  rfl

/-- For every sound table, every crew and every order in which the tasks of the crew run, the crew alone
decides what stops the clear: nothing does exactly if its workers can be marked and fewer than `2 ^ 31`
of them leave their task undone.

A clear that is not stopped empties the table and leaves all else of it as it was. It reports how many of
the workers leave their task undone, as the number of stripes that the caller has zeroed, unless there
are none; and a crew without workers makes it report nothing at all. A clear that is stopped reports
nothing. It has set back the generation and emptied the buckets of the tasks that ran and of the first
`2 ^ 31` stripes left to the caller, none if the workers could not be marked; the other buckets hold what
they held. The order in which `Table.clear` lets the tasks run is one of these. -/
theorem clear_empties_and_reports_or_stops {t : Table} (h : t.Sound) (crew : Crew) :
    (crew.fault? = none ↔
      crew.size ≤ marksLimit ∧ crew.handling.countP Handling.leaves < 2^31) ∧
    (∀ (α : Type) (observe : Array Bucket → α) (runs : List (Moment × Nat)), crew.Follows runs →
      (t.clearBy observe crew.size runs).fault = crew.fault? ∧
      (crew.fault? = none →
        (t.clearBy observe crew.size runs).table = t.emptied ∧
        (t.clearBy observe crew.size runs).notices =
          (if crew.handling.countP Handling.leaves = 0 then []
            else [.stripesTakenOver (crew.handling.countP Handling.leaves) crew.size]) ++
          (if crew.size = 0 then [] else [.cleared t.bucketCount crew.size])) ∧
      (crew.fault? ≠ none →
        (t.clearBy observe crew.size runs).notices = [] ∧
        ∃ buckets, (t.clearBy observe crew.size runs).table = { t with buckets, generation := 0 } ∧
          ∀ n, buckets[n]? =
            if crew.size ≤ marksLimit ∧
                ∃ worker ∈ runs.map (·.2) ++ (leftOver crew.size (runs.map (·.2))).take (2^31),
                  (Stripe.ofWorker t.bucketCount crew.size worker).Covers n
            then t.buckets[n]?.map fun _ => Bucket.empty
            else t.buckets[n]?)) ∧
    crew.Follows crew.runs ∧ t.clear crew = t.clearBy (fun _ => ()) crew.size crew.runs := by
  refine ⟨clearFault?_eq_none_iff, fun α observe runs hf => ?_, crew.follows_runs, rfl⟩
  have hfault := fault_clearBy_of_follows observe hf t
  refine ⟨hfault, fun hnone => ⟨table_clearBy_of_none h (hfault.trans hnone),
    notices_clearBy_of_follows observe hf hnone t⟩, fun hsome => ⟨?_, ?_⟩⟩
  · rw [notices_clearBy, hfault, if_neg fun hand => hsome hand.1]
  · refine ⟨_, table_clearBy observe crew.size runs t, fun n => ?_⟩
    -- A crew without workers is never stopped.
    have hsize : crew.size ≠ 0 := by
      intro hzero
      exact hsome (Crew.fault?_eq_none_of_lt (hzero ▸ (by decide)))
    rw [getElem?_zeroStripes, zeroedStripes, if_neg hsize]
    split
    · rename_i hmarks
      simp [Nat.not_le.mpr hmarks]
    · rename_i hmarks
      simp only [List.mem_map, exists_exists_and_eq_and, Nat.not_lt.mp hmarks, true_and]
      rfl

/-- Two buckets with a record and five workers, two of whom leave their task undone: one of the tasks
that were put off runs before the one that was not. -/
theorem clear_empties_and_reports_two_of_five :
    ∃ (t : Table) (crew : Crew) (runs : List (Moment × Nat)), t.Sound ∧
      t.buckets.toList.map Bucket.occupied = [1, 1] ∧
      crew = .plan [.run, .reject, .defer, .drop, .defer] ∧ crew.Follows runs ∧
      runs = [(.wait, 4), (.run, 0), (.wait, 2)] ∧
      (t.clearBy (fun _ => ()) 5 runs).fault = none ∧
      (t.clearBy (fun _ => ()) 5 runs).table = t.emptied ∧
      (t.clearBy (fun _ => ()) 5 runs).notices = [.stripesTakenOver 2 5, .cleared 2 5] := by
  let b := Bucket.empty.save .default 5 8 Record.absent 0
  have h : Table.Sound ⟨.single, #[b, b], 2, 8, .default⟩ := ⟨rfl, by decide⟩
  have hf : Crew.Follows (.plan [.run, .reject, .defer, .drop, .defer])
      [(.wait, 4), (.run, 0), (.wait, 2)] := by
    intro worker
    match worker with
    | 0 | 1 | 2 | 3 | 4 => decide
    | n + 5 => simp [Crew.handling]
  obtain ⟨hiff, hclear, -, -⟩ := clear_empties_and_reports_or_stops h
    (.plan [.run, .reject, .defer, .drop, .defer])
  obtain ⟨hfault, hreturns, -⟩ := hclear Unit (fun _ => ()) _ hf
  have hnone := hiff.mpr ⟨by decide, by decide⟩
  obtain ⟨htable, hnotices⟩ := hreturns hnone
  exact ⟨_, _, _, h, rfl, rfl, hf, rfl, hfault.trans hnone, htable, hnotices⟩

end Table

/-! ## More workers than can be counted -/

/-- No task runs if every worker rejects its own. -/
theorem Crew.runs_of_rejected (count : Nat) : (plan (List.replicate count .reject)).runs = [] := by
  have hnone (h : Handling) (hne : h ≠ .reject) :
      treating h (List.replicate count .reject) = [] := by
    rw [List.eq_nil_iff_forall_not_mem]
    intro worker hmem
    rw [mem_treating, List.getElem?_replicate] at hmem
    split at hmem
    · exact hne (Option.some.inj hmem).symm
    · cases hmem
  unfold runs
  dsimp only
  rw [hnone .run (by decide), hnone .defer (by decide)]
  rfl

/-- Of a single bucket only the last of several workers has a stripe. -/
theorem Stripe.not_covers_of_not_last {workers worker n : Nat} (h : worker + 1 < workers) :
    ¬(Stripe.ofWorker 1 workers worker).Covers n := by
  have hstride : 1 / workers = 0 := Nat.div_eq_of_lt (by omega)
  unfold Stripe.ofWorker Stripe.Covers Stripe.stop
  simp only [hstride, if_neg (Nat.ne_of_lt h)]
  omega

/-- If as many workers reject their task as cannot be counted, a clear is stopped. -/
theorem Crew.fault?_of_rejected {count : Nat} (hcount : counterLimit ≤ count)
    (hmarks : count ≤ marksLimit) :
    (plan (List.replicate count .reject)).fault? = some .addOverflow := by
  have hsize : (plan (List.replicate count .reject)).size = count := List.length_replicate
  have hleaves : (plan (List.replicate count .reject)).handling.countP Handling.leaves = count := by
    show (List.replicate count Handling.reject).countP Handling.leaves = count
    rw [List.countP_replicate]
    exact if_pos rfl
  rw [fault?, hsize, hleaves, clearFault?, if_neg (by omega), if_pos hcount]

/-- If more workers reject their task than can be counted, the last of them is never reached. So a table
of a single bucket keeps what it holds. -/
theorem Table.buckets_clear_of_rejected {t : Table} (hone : t.bucketCount = 1) {count : Nat}
    (hcount : counterLimit < count) (hmarks : count ≤ marksLimit) :
    (t.clear (.plan (List.replicate count .reject))).table.buckets = t.buckets := by
  have hsize : Crew.size (.plan (List.replicate count .reject)) = count := List.length_replicate
  unfold clear clearObserved
  rw [table_clearBy, Crew.runs_of_rejected, hsize, hone, zeroedStripes, if_neg (by omega),
    if_neg (by omega)]
  -- The stripes of all workers but the last are empty, and the last is not among the first `2 ^ 31`.
  apply Array.ext_getElem?
  intro n
  rw [getElem?_zeroStripes, if_neg]
  rintro ⟨s, hs, hcovers⟩
  obtain ⟨worker, hworker, rfl⟩ := List.mem_map.mp hs
  have hleft : leftOver count [] = List.range count := List.filter_eq_self.mpr fun _ _ => rfl
  rw [List.map_nil, List.nil_append, hleft, List.take_range, List.mem_range] at hworker
  exact Stripe.not_covers_of_not_last (by omega) hcovers

/-- A clear does not empty every table: one bucket with a record, and `2 ^ 31 + 1` workers that reject
their task. The counter runs over before the last of them is reached, nothing is reported, and the record
is still there. -/
theorem Table.exists_kept_bucket :
    ∃ (t : Table) (crew : Crew), t.Sound ∧ t.bucketCount = 1 ∧
      t.buckets.toList.map Bucket.occupied = [1] ∧
      crew = .plan (List.replicate (2^31 + 1) .reject) ∧
      (t.clear crew).fault = some .addOverflow ∧ (t.clear crew).notices = [] ∧
      (t.clear crew).table.buckets = t.buckets ∧ (t.clear crew).table ≠ t.emptied := by
  let b := Bucket.empty.save .default 5 8 Record.absent 0
  let t : Table := ⟨.single, #[b], 1, 8, .default⟩
  have h : t.Sound := ⟨rfl, by decide⟩
  -- The number of workers stands for itself, so that no list of that many is computed.
  obtain ⟨count, hcount⟩ : ∃ count, 2^31 + 1 = count := ⟨_, rfl⟩
  have hmany : counterLimit < count := by
    rw [← hcount]
    decide
  have hmarks : count ≤ marksLimit := by
    rw [← hcount]
    decide
  have hfault : (t.clear (.plan (List.replicate count .reject))).fault = some .addOverflow :=
    (fault_clear _ t).trans (Crew.fault?_of_rejected (Nat.le_of_lt hmany) hmarks)
  have hbuckets := t.buckets_clear_of_rejected rfl hmany hmarks
  have hnotices : (t.clear (.plan (List.replicate count .reject))).notices = _ :=
    notices_clearBy _ _ _ t
  have hstopped : (t.clear (.plan (List.replicate count .reject))).fault ≠ none := by
    rw [hfault]
    exact Option.some_ne_none _
  refine ⟨t, .plan (List.replicate count .reject), h, rfl, rfl, by rw [hcount], hfault, ?_, hbuckets,
    fun heq => ?_⟩
  · rw [hnotices]
    exact if_neg fun hand => hstopped hand.1
  · -- The record counts as occupied, and an emptied bucket does not.
    rw [heq] at hbuckets
    have hcounts : t.emptied.buckets.toList.map Bucket.occupied =
        t.buckets.toList.map Bucket.occupied := by rw [hbuckets]
    exact absurd hcounts (by decide)

end Transposition
