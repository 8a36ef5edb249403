import Transposition.Proofs.Words
import Transposition.Stripe

/-!
# How stripes share out an array

The stripes of the workers on an array lie in a row, from its first position to its end
(`Stripe.ShareOut`). That is all it takes for them to be a partition: an earlier stripe has stopped
where a later one starts, none goes beyond the end, and each position lies in exactly one. The
lengths of the stripes matter only for `Stripe.shareOut_ofWorker`, which finds them in a row; their sum
is right because the last one takes the remainder (`Stripe.start_ofWorker_last_add`).

The ends of a stripe are computed in machine words. No result on the way leaves a word that has the
size of the array and the number of workers (`Stripe.ofWorker?_eq`).
-/

namespace Transposition

namespace Stripe

open Word

/-- A stripe does not stop before it starts. -/
theorem start_le_stop (s : Stripe) : s.start ≤ s.stop := Nat.le_add_right _ _

/-! ## Stripes in a row -/

/-- So many stripes that lie in a row, from the first position of an array to its end. -/
structure ShareOut (size count : Nat) (stripe : Nat → Stripe) : Prop where
  /-- The first stripe starts at the first position. -/
  first : (stripe 0).start = 0
  /-- Each of the others starts where the one before it stops. -/
  next : ∀ i, i + 1 < count → (stripe (i + 1)).start = (stripe i).stop
  /-- The last stripe stops at the end. -/
  last : (stripe (count - 1)).stop = size

namespace ShareOut

variable {size count : Nat} {stripe : Nat → Stripe}

/-- An earlier stripe has stopped where a later one starts. -/
theorem stop_le_start (h : ShareOut size count stripe) {i j : Nat} (hij : i < j) (hj : j < count) :
    (stripe i).stop ≤ (stripe j).start := by
  -- On the later stripe: what lies between the two only moves its start further away.
  induction j with
  | zero => exact absurd hij (Nat.not_lt_zero i)
  | succ j ih =>
    rw [h.next j hj]
    rcases Nat.lt_succ_iff_lt_or_eq.mp hij with hlt | rfl
    · calc (stripe i).stop ≤ (stripe j).start := ih hlt (Nat.lt_of_succ_lt hj)
        _ ≤ (stripe j).stop := (stripe j).start_le_stop
    · exact Nat.le_refl _

/-- No stripe goes beyond the end. -/
theorem stop_le (h : ShareOut size count stripe) {i : Nat} (hi : i < count) :
    (stripe i).stop ≤ size := by
  rcases Nat.lt_or_eq_of_le (Nat.le_sub_one_of_lt hi) with hlt | rfl
  · calc (stripe i).stop ≤ (stripe (count - 1)).start := h.stop_le_start hlt (by omega)
      _ ≤ (stripe (count - 1)).stop := (stripe (count - 1)).start_le_stop
      _ = size := h.last
  · exact Nat.le_of_eq h.last

/-- A position of one stripe is none of a later one. -/
theorem not_covers_of_lt (h : ShareOut size count stripe) {i j p : Nat} (hij : i < j)
    (hj : j < count) (hp : (stripe i).Covers p) : ¬(stripe j).Covers p := by
  intro hlater
  have hstop : p < (stripe i).stop := hp.2
  have hstart : (stripe j).start ≤ p := hlater.1
  exact absurd (h.stop_le_start hij hj) (by omega)

/-- No position lies in two stripes. -/
theorem eq_of_covers (h : ShareOut size count stripe) {i j p : Nat} (hi : i < count) (hj : j < count)
    (hip : (stripe i).Covers p) (hjp : (stripe j).Covers p) : i = j := by
  rcases Nat.lt_trichotomy i j with hlt | heq | hgt
  · exact absurd hjp (h.not_covers_of_lt hlt hj hip)
  · exact heq
  · exact absurd hip (h.not_covers_of_lt hgt hi hjp)

/-- A position before the stop of a stripe lies in that stripe or in an earlier one. -/
theorem exists_covers_of_lt_stop (h : ShareOut size count stripe) {i p : Nat} (hi : i < count)
    (hp : p < (stripe i).stop) : ∃ j ≤ i, (stripe j).Covers p := by
  -- The first stripe to stop beyond the position covers it, as it starts where the one before stops.
  induction i with
  | zero =>
    refine ⟨0, Nat.le_refl 0, ?_, hp⟩
    rw [h.first]
    exact Nat.zero_le p
  | succ i ih =>
    by_cases hearlier : p < (stripe i).stop
    · obtain ⟨j, hj, hcovers⟩ := ih (Nat.lt_of_succ_lt hi) hearlier
      exact ⟨j, Nat.le_succ_of_le hj, hcovers⟩
    · refine ⟨i + 1, Nat.le_refl _, ?_, hp⟩
      rw [h.next i hi]
      exact Nat.le_of_not_lt hearlier

/-- Every position lies in exactly one stripe. -/
theorem existsUnique_covers (h : ShareOut size count stripe) (hcount : 0 < count) {p : Nat}
    (hp : p < size) : ∃! i, i < count ∧ (stripe i).Covers p := by
  have hend : p < (stripe (count - 1)).stop := by rwa [h.last]
  obtain ⟨i, hi, hcovers⟩ := h.exists_covers_of_lt_stop (Nat.sub_one_lt_of_lt hcount) hend
  have hlt : i < count := by omega
  exact ⟨i, ⟨hlt, hcovers⟩, fun j ⟨hj, hcoversj⟩ => h.eq_of_covers hj hlt hcoversj hcovers⟩

end ShareOut

/-! ## The stripes of workers -/

section OfWorker

variable {size workers index : Nat}

/-- The last stripe starts the quotient and the remainder before the end. -/
theorem start_ofWorker_last_add (h : index + 1 = workers) :
    (ofWorker size workers index).start + (size / workers + size % workers) = size := by
  calc size / workers * index + (size / workers + size % workers)
      = workers * (size / workers) + size % workers := by
        rw [← Nat.add_assoc, ← Nat.mul_succ, Nat.succ_eq_add_one, h, Nat.mul_comm]
    _ = size := Nat.div_add_mod size workers

/-- The stripes of all workers but the last are as long as the quotient. -/
theorem length_ofWorker_of_lt (h : index + 1 < workers) :
    (ofWorker size workers index).length = size / workers :=
  if_neg (Nat.ne_of_lt h)

/-- The stripe of the last worker has the remainder too. -/
theorem length_ofWorker_last (h : index + 1 = workers) :
    (ofWorker size workers index).length = size / workers + size % workers := by
  calc (ofWorker size workers index).length
      = size - (ofWorker size workers index).start := if_pos h
    _ = size / workers + size % workers :=
        Nat.sub_eq_of_eq_add' (start_ofWorker_last_add h).symm

/-- The stripe of the last worker stops at the end. -/
theorem stop_ofWorker_last (h : index + 1 = workers) : (ofWorker size workers index).stop = size := by
  rw [stop, length_ofWorker_last h]
  exact start_ofWorker_last_add h

/-- The stripes of the workers lie in a row. -/
theorem shareOut_ofWorker (size : Nat) (h : 0 < workers) :
    ShareOut size workers (ofWorker size workers) where
  first := Nat.mul_zero _
  next i hi := by
    rw [stop, length_ofWorker_of_lt hi]
    exact Nat.mul_succ _ i
  last := stop_ofWorker_last (Nat.sub_add_cancel h)

/-- Every position of the array lies in the stripe of some worker. -/
theorem exists_covers {i : Nat} (h : 0 < workers) (hi : i < size) :
    ∃ w < workers, (ofWorker size workers w).Covers i :=
  ((shareOut_ofWorker size h).existsUnique_covers h hi).exists

/-! ## Words -/

/-- The stripe of a worker, computed in an unsigned word. It is found by its two ends, and its length
is their difference. A division by zero ends the computation too. -/
def ofWorker? (bits size workers index : Nat) : Option Stripe := do
  if workers = 0 then none
  let stride ← (unsigned bits).fit? (size / workers)
  let start ← (unsigned bits).fit? (stride * index)
  let next ← (unsigned bits).fit? (index + 1)
  let count ← (if next = workers then (unsigned bits).fit? (size - start) else some stride)
  let stop ← (unsigned bits).fit? (start + count)
  let length ← (unsigned bits).fit? (stop - start)
  return ⟨start.toNat, length.toNat⟩

/-- The stripe of a worker is computed without leaving a word that has the size of the array and the
number of workers. -/
theorem ofWorker?_eq {bits : Nat} (hsize : (unsigned bits).Has size)
    (hworkers : (unsigned bits).Has workers) (h : index < workers) :
    ofWorker? bits size workers index = some (ofWorker size workers index) := by
  have hstop := (shareOut_ofWorker size (Nat.zero_lt_of_lt h)).stop_le h
  have hends : (ofWorker size workers index).stop =
      (ofWorker size workers index).start + (ofWorker size workers index).length := rfl
  -- All that is computed of the stripe is at most the size of the array.
  have hfits {n : Nat} (hn : n ≤ size) : (unsigned bits).fit? n = some ↑n :=
    fit?_eq_some (hsize.of_le (by omega) (by omega))
  have hstride : (unsigned bits).fit? (size / workers) = some ↑(size / workers) :=
    hfits (Nat.div_le_self size workers)
  have hstart : (unsigned bits).fit? (↑(size / workers) * index) =
      some ↑(ofWorker size workers index).start :=
    hfits (show (ofWorker size workers index).start ≤ size by omega)
  have hnext : (unsigned bits).fit? (index + 1) = some ↑(index + 1) :=
    fit?_eq_some (hworkers.of_le (by omega) (by omega))
  have hlength : (unsigned bits).fit? ↑(ofWorker size workers index).length =
      some ↑(ofWorker size workers index).length :=
    hfits (by omega)
  have hcount : (if (↑(index + 1) : Int) = workers then
        (unsigned bits).fit? (size - (ofWorker size workers index).start)
      else some ↑(size / workers)) = some ↑(ofWorker size workers index).length := by
    -- Only the last worker subtracts, and its stripe does not start beyond the end.
    by_cases hlast : index + 1 = workers
    · have hend : (ofWorker size workers index).stop = size := stop_ofWorker_last hlast
      have hrest : (size - (ofWorker size workers index).start : Int) =
          (ofWorker size workers index).length := by omega
      rw [if_pos (Int.natCast_inj.mpr hlast), hrest, hlength]
    · rw [if_neg (mt Int.natCast_inj.mp hlast), length_ofWorker_of_lt (by omega)]
  have hsum : (unsigned bits).fit? ((ofWorker size workers index).start +
      (ofWorker size workers index).length) = some ↑(ofWorker size workers index).stop :=
    hfits hstop
  have hdifference : ((ofWorker size workers index).stop -
      (ofWorker size workers index).start : Int) = (ofWorker size workers index).length := by omega
  unfold ofWorker?
  simp only [if_neg (Nat.ne_zero_of_lt h), hstride, hstart, hnext, hcount, hsum, hdifference, hlength,
    Option.bind_eq_bind, Option.bind_some, Int.toNat_natCast]
  rfl

end OfWorker

/-! ## Partition -/

/-- For an array of any size and any positive number of workers, more than it has positions too: the
stripes of the workers lie in a row, from the first position of the array to its end. Of any two of
them, the earlier one has stopped where the later one starts; none goes beyond the end; and each
position of the array belongs to exactly one. All are as long as the quotient of the size and the number
of workers but the last, which is longer by the remainder. In any unsigned word that has the size and
the number of workers, the stripes are computed without a result that leaves the word. -/
theorem stripes_partition_array (size : Nat) {workers : Nat} (h : 0 < workers) :
    ShareOut size workers (ofWorker size workers) ∧
      (∀ i j, i < j → j < workers →
        (ofWorker size workers i).stop ≤ (ofWorker size workers j).start) ∧
      (∀ i < workers, (ofWorker size workers i).start ≤ (ofWorker size workers i).stop ∧
        (ofWorker size workers i).stop ≤ size) ∧
      (∀ p < size, ∃! i, i < workers ∧ (ofWorker size workers i).Covers p) ∧
      (∀ i, i + 1 < workers → (ofWorker size workers i).length = size / workers) ∧
      (ofWorker size workers (workers - 1)).length = size / workers + size % workers ∧
      ∀ bits, (unsigned bits).Has size → (unsigned bits).Has workers → ∀ i < workers,
        ofWorker? bits size workers i = some (ofWorker size workers i) := by
  have hrow := shareOut_ofWorker size h
  refine ⟨hrow, fun i j hij hj => hrow.stop_le_start hij hj,
    fun i hi => ⟨(ofWorker size workers i).start_le_stop, hrow.stop_le hi⟩,
    fun p hp => hrow.existsUnique_covers h hp, fun i hi => length_ofWorker_of_lt hi,
    length_ofWorker_last (Nat.sub_add_cancel h), fun bits hsize hworkers i hi => ?_⟩
  exact ofWorker?_eq hsize hworkers hi

/-- Two positions and five workers, of whom the last one gets both; and the greatest size that a word of
64 bits has, with `2^63` workers: the stripe of the last one is longer by one than all the others
together. -/
theorem stripes_partition_array_more_workers :
    0 < 5 ∧ (List.range 5).map (ofWorker 2 5) = [⟨0, 0⟩, ⟨0, 0⟩, ⟨0, 0⟩, ⟨0, 0⟩, ⟨0, 2⟩] ∧
      (∀ p < 2, ∃! i, i < 5 ∧ (ofWorker 2 5 i).Covers p) ∧
      0 < 2^63 ∧ u64.Has (2^64 - 1 : Nat) ∧ u64.Has (2^63 : Nat) ∧
      ofWorker? 64 (2^64 - 1) (2^63) (2^63 - 1) = some ⟨2^63 - 1, 2^63⟩ ∧
      (ofWorker (2^64 - 1) (2^63) (2^63 - 2)).stop = 2^63 - 1 := by
  obtain ⟨-, -, -, hunique, -, -, -⟩ := stripes_partition_array 2 (show 0 < 5 by decide)
  have hsize : u64.Has (2^64 - 1 : Nat) := by decide
  have hworkers : u64.Has (2^63 : Nat) := by decide
  obtain ⟨hrow, -, -, -, -, -, hwords⟩ :=
    stripes_partition_array (2^64 - 1) (show 0 < 2^63 by decide)
  refine ⟨by decide, by decide, hunique, by decide, hsize, hworkers, ?_, ?_⟩
  · rw [hwords 64 hsize hworkers (2^63 - 1) (by decide)]
    decide
  · rw [← hrow.next (2^63 - 2) (by decide)]
    decide

end Stripe

end Transposition
