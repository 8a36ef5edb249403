import Mathlib.Algebra.GroupWithZero.Nat
import Transposition.Proofs.Schedule

/-!
# Every schedule of a pool comes to an end

Each step of the owner and each step of a worker takes at least one off a number that the program and
the size of the pool determine (`OwnedPool.backlog`), so there are no endless schedules. A schedule can
always go on until the pool is closed: when the owner is blocked, the worker that it waits for is not
(`OwnedPool.Sound.exists_step`). So no call waits in vain, and no closing does.
-/

namespace Transposition.OwnedPool

variable {calls : List Call} {size n : Nat} {s s' : OwnedPool} {w v : Worker}

/-! ## What is left to do -/

/-- The steps of the owner that a call not yet begun brings with it, at most, and those of the worker
that it sends a task to. -/
def callBacklog : Call → Nat
  | .run _ _ => 8
  | .wait _ => 2

/-- The steps that the place of the owner leaves it to do outside the calls that it has not begun. -/
def placeBacklog (size : Nat) : Position → Nat
  | .between => 8 * size + 3
  | .sending _ _ => 8 * size + 10
  | .waiting _ => 8 * size + 4
  | .receiving _ => 8 * size + 3
  | .collecting _ => 8 * size + 5
  | .dismissing n => 7 * (size - n) + size + 2
  | .joining n => size - n + 1
  | .refusing _ _ | .losing _ | .closed | .stopped _ => 0

/-- The steps that are left, at most. -/
def backlog (s : OwnedPool) : Nat :=
  placeBacklog s.pool.workers.size s.position + (s.calls.map callBacklog).sum +
    (s.pool.workers.toList.map Worker.backlog).sum

/-- Replacing an element of a list changes a sum over the list by what the element adds to it. -/
theorem sum_map_set (f : Worker → Nat) {l : List Worker} {n : Nat} (hw : l[n]? = some w) :
    ((l.set n v).map f).sum + f w = (l.map f).sum + f v := by
  induction l generalizing n with
  | nil => cases hw
  | cons u rest ih =>
    cases n with
    | zero =>
      obtain rfl := Option.some.inj hw
      simp only [List.set_cons_zero, List.map_cons, List.sum_cons]
      omega
    | succ n =>
      have hrest := ih (n := n) hw
      simp only [List.set_cons_succ, List.map_cons, List.sum_cons]
      omega

/-- If one worker changes, what is left is less if it is less for the owner and that worker. -/
theorem backlog_put_lt (hw : s.pool.workers[n]? = some w) {position : Position} {rest : List Call}
    {returns : List Return} {notices : List Notice}
    (hlt : placeBacklog s.pool.workers.size position + (rest.map callBacklog).sum + v.backlog <
      placeBacklog s.pool.workers.size s.position + (s.calls.map callBacklog).sum + w.backlog) :
    backlog ⟨s.pool.setWorker n v, position, rest, returns, notices⟩ < s.backlog := by
  have hlist : (s.pool.setWorker n v).workers.toList = s.pool.workers.toList.set n v :=
    Array.toList_setIfInBounds
  have hsize : (s.pool.setWorker n v).workers.size = s.pool.workers.size := s.pool.size_setWorker n v
  have hsum := sum_map_set (v := v) Worker.backlog (l := s.pool.workers.toList) (n := n)
    (by rwa [Array.getElem?_toList])
  show placeBacklog (s.pool.setWorker n v).workers.size position + (rest.map callBacklog).sum +
    ((s.pool.setWorker n v).workers.toList.map Worker.backlog).sum < s.backlog
  unfold backlog
  rw [hlist, hsize]
  omega

/-- A dismissal sends one order, at most. -/
theorem backlog_dismiss_le (w : Worker) : w.dismiss.backlog ≤ w.backlog + 6 := by
  unfold Worker.dismiss
  cases hsent : w.send? .shutdown with
  | none => exact Nat.le_add_right _ _
  | some v => exact Nat.le_of_eq (Worker.backlog_send? hsent)

/-- Every step of the owner takes one off what is left, at least. -/
theorem backlog_of_moves (hm : s.Moves s') : s'.backlog < s.backlog := by
  cases hm with
  | @count n task rest w place next worker =>
    have hcount : w.count.backlog = w.backlog := rfl
    show backlog ⟨s.pool.setWorker n w.count, .sending n task, rest, s.returns, s.notices⟩ < _
    refine backlog_put_lt worker ?_
    simp only [place, next, placeBacklog, List.map_cons, List.sum_cons, callBacklog]
    omega
  | @send n task w v place worker sent =>
    have hsent := Worker.backlog_send? sent
    show backlog ⟨s.pool.setWorker n v, .between, s.calls, _, s.notices⟩ < _
    refine backlog_put_lt worker ?_
    simp only [place, placeBacklog]
    omega
  | @begin n rest w place next worker =>
    simp only [backlog, goto, place, next, placeBacklog, List.map_cons, List.sum_cons, callBacklog]
    omega
  | @leave n w place worker none =>
    simp only [backlog, leave, place, placeBacklog]
    omega
  | @enter n w place worker some =>
    simp only [backlog, goto, place, placeBacklog]
    omega
  | @receive n w v place worker received =>
    have hreceived := Worker.backlog_receive? received
    show backlog ⟨s.pool.setWorker n v, .collecting n, s.calls, s.returns, s.notices⟩ < _
    refine backlog_put_lt worker ?_
    simp only [place, placeBacklog]
    omega
  | @collect n w place worker =>
    have hdiscount : w.discount.backlog = w.backlog := rfl
    show backlog ⟨s.pool.setWorker n w.discount, .waiting n, s.calls, s.returns, s.notices⟩ < _
    refine backlog_put_lt worker ?_
    simp only [place, placeBacklog]
    omega
  | close place next =>
    simp only [backlog, goto, place, placeBacklog]
    omega
  | @dismiss n w place worker =>
    have hlt := (Array.getElem?_eq_some_iff.mp worker).1
    have hdismiss := backlog_dismiss_le w
    show backlog ⟨s.pool.setWorker n w.dismiss, .dismissing (n + 1), s.calls, s.returns,
      s.notices⟩ < _
    refine backlog_put_lt worker ?_
    simp only [place, placeBacklog]
    omega
  | @turn n place last =>
    simp only [backlog, goto, place, placeBacklog]
    omega
  | @join n w place worker gone =>
    have hlt := (Array.getElem?_eq_some_iff.mp worker).1
    simp only [backlog, goto, place, placeBacklog]
    omega
  | @finish n place last =>
    simp only [backlog, goto, place, placeBacklog]
    omega

/-- Every step of a worker takes one off what is left, at least. -/
theorem backlog_of_workerStep (hs : s.workerStep? n = some s') : s'.backlog < s.backlog := by
  obtain ⟨w, v, hw, hv, rfl⟩ := workerStep?_eq_some_iff.mp hs
  exact backlog_put_lt hw (Nat.add_lt_add_left (Worker.backlog_step? hv) _)

/-- Any number of steps keeps a state sound, and there are no more of them than were left. -/
theorem Sound.play (h : s.Sound size calls) (hvalid : ∀ c ∈ calls, c.worker < size)
    {turns : List Turn} (hp : s.play turns = some s') :
    s'.Sound size calls ∧ s'.backlog + turns.length ≤ s.backlog := by
  induction turns generalizing s with
  | nil =>
    obtain rfl := Option.some.inj hp
    exact ⟨h, Nat.le_refl _⟩
  | cons turn rest ih =>
    obtain ⟨t, ht, hrest⟩ := Option.bind_eq_some_iff.mp hp
    have hlt : t.backlog < s.backlog := by
      cases turn with
      | worker number => exact backlog_of_workerStep ht
      | owner => exact backlog_of_moves (h.moves hvalid ht)
    obtain ⟨hsound, hle⟩ := ih (h.step hvalid ht) hrest
    refine ⟨hsound, ?_⟩
    rw [List.length_cons]
    omega

/-- As long as the pool is not closed, the owner or a worker has a step to take: when the owner is
blocked at a worker, that worker is not. -/
theorem Sound.exists_step (h : s.Sound size calls) (hvalid : ∀ c ∈ calls, c.worker < size)
    (hopen : s.position ≠ .closed) : ∃ turn s', s.step? turn = some s' := by
  have hworker {n : Nat} {w : Worker} (hw : s.pool.workers[n]? = some w)
      (hs : ∃ v, w.step? = some v) : ∃ turn s', s.step? turn = some s' := by
    obtain ⟨v, hv⟩ := hs
    exact ⟨.worker n, _, workerStep?_eq_some_iff.mpr ⟨w, v, hw, hv, rfl⟩⟩
  rcases h.moves_or_blocked hvalid with ⟨s', hs', -⟩ | ⟨-, hblocked⟩
  · exact ⟨.owner, s', hs'⟩
  cases hblocked with
  | @receive n w place worker silent =>
    -- Without a signal the counted task is still the worker's.
    have htracks := h.tracks worker .blocked (by rw [place]; exact if_pos rfl)
    have hpending := htracks.blocked rfl
    have hleft : w.signals + Stance.blocked.ahead < w.pending := by
      rw [Worker.receive?_eq_none_iff.mp silent]
      exact Nat.pos_of_ne_zero hpending
    exact hworker worker (htracks.keeps.exists_step htracks.keeps.alive (.inr hleft))
  | @join n w place worker alive =>
    -- The order to stop is still before the worker.
    have htracks := h.tracks worker .dismissed (by rw [place]; exact if_neg (Nat.lt_irrefl n))
    exact hworker worker (htracks.keeps.exists_step alive (.inl rfl))
  | closed place => exact absurd place hopen

end Transposition.OwnedPool
