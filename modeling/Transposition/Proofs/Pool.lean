import Transposition.Proofs.Progress

/-!
# What a pool promises its owner

For any size, any program of dispatches and waits, and any interleaving of the owner with its workers:
`OwnedPool.keeps_promises` says what the counts are, that no task is refused, what a wait and a closing
guarantee, and that neither is in vain. It is read off the invariant (`OwnedPool.Sound`), one part at a
time.

All this takes tasks that, if they break off, leave something that can be dropped. A worker drops what a
task leaves where nothing catches it any more, so otherwise the worker is lost, and with it what is in
its queue (`OwnedPool.exists_loss_of_running`).

The calls of a program can also be answered one after the other, each worker running only when it is
waited for (`Pool.perform`). Every schedule ends with the pool that this leaves
(`OwnedPool.pool_of_closed`).
-/

namespace Transposition

/-! ## What an owner finds between its calls -/

/-- A worker is dismissed only after the last call. -/
theorem Position.closing_of_isDismissed {p : Position} {m : Nat}
    (h : (p.stance m).isDismissed = true) : p.isClosing = true ∧ p.call? = none := by
  cases hc : p.call? with
  | none =>
    rcases stance_of_no_call m hc with hfree | ⟨hclosing, -⟩
    · rw [hfree] at h
      cases h
    · exact ⟨hclosing, rfl⟩
  | some c =>
    have hnot : (p.stance m).isDismissed = false := by
      cases p <;> cases hc <;> simp only [stance] <;> split <;> rfl
    rw [hnot] at h
    cases h

namespace OwnedPool

variable {calls rest : List Call} {size n m : Nat} {s s' : OwnedPool} {w : Worker}

section Running

variable {task : Task} (hw : s.pool.workers[n]? = some w) (hactivity : w.activity = .running task)
include hw hactivity

/-- A running task comes to its end, which is not reported yet. -/
theorem step?_of_running :
    s.step? (.worker n) = some (s.put n { w with activity := .ended task, ran := w.ran ++ [task] }) := by
  have hstep : w.step? = some { w with activity := .ended task, ran := w.ran ++ [task] } := by
    unfold Worker.step?
    rw [hactivity]
  have hreport : w.report (Pool.workerName n) = [] := by
    unfold Worker.report
    rw [hactivity]
  refine workerStep?_eq_some_iff.mpr ⟨w, _, hw, hstep, ?_⟩
  rw [hreport]
  rfl

/-- A running task that breaks off and leaves what cannot be dropped costs the pool its worker: it goes
without a signal and without a report, and its queue is never run. -/
theorem exists_loss_of_running (hloud : task.isQuiet = false) :
    ∃ s₁ s₂ s₃, s.step? (.worker n) = some s₁ ∧ s₁.step? (.worker n) = some s₂ ∧
      s₂.step? (.worker n) = some s₃ ∧
      s₃.pool.workers[n]? = some
        { w with queue := [], activity := .exited, ran := w.ran ++ [task] } ∧
      s₃.notices = s.notices := by
  -- The task ends, the worker is lost over what it left, and its queue goes with it.
  let v₁ : Worker := { w with activity := .ended task, ran := w.ran ++ [task] }
  let v₂ : Worker := { w with activity := .leaving, ran := w.ran ++ [task] }
  let v₃ : Worker := { w with queue := [], activity := .exited, ran := w.ran ++ [task] }
  have hunreported : v₁.report (Pool.workerName n) = [] := by
    obtain ⟨tag, payload⟩ := task
    cases payload with
    | none => cases hloud
    | some payload =>
      cases payload with
      | quiet => cases hloud
      | loud => rfl
  have hw₁ : (s.put n v₁).pool.workers[n]? = some v₁ := Pool.getElem?_setWorker_self hw v₁
  have hlost : v₁.step? = some v₂ := if_neg (by simp [hloud])
  have hstep₂ := workerStep?_eq_some_iff.mpr ⟨v₁, v₂, hw₁, hlost, rfl⟩
  rw [hunreported] at hstep₂
  have hw₂ : ((s.put n v₁).put n v₂).pool.workers[n]? = some v₂ :=
    Pool.getElem?_setWorker_self hw₁ v₂
  have hstep₃ := workerStep?_eq_some_iff.mpr ⟨v₂, v₃, hw₂, rfl, rfl⟩
  exact ⟨_, _, _, step?_of_running hw hactivity, hstep₂, hstep₃,
    Pool.getElem?_setWorker_self hw₂ v₃, rfl⟩

end Running

/-- A worker is gone only after all calls have returned, and has run by then all that it was sent. -/
theorem Sound.of_exited (h : s.Sound size calls) (hw : s.pool.workers[n]? = some w)
    (hexited : w.activity = .exited) :
    s.returns = (calls.map Call.granted).reverse ∧ w.queue = [] ∧ w.ran = sentTo n s.returns := by
  have hkeeps := (h.workers n w hw).keeps
  obtain ⟨hclosing, hcall⟩ := Position.closing_of_isDismissed (hkeeps.exited hexited).1
  obtain ⟨past, hreturns, hprogram⟩ := h.program
  rw [hcall, h.closing hclosing, Option.toList_none, List.append_nil, List.append_nil] at hprogram
  rw [← hprogram]
  exact ⟨hreturns, hkeeps.of_exited hexited⟩

end OwnedPool

/-! ## One call at a time -/

/-- Answers a call at once, with the worker running only when it is waited for. -/
def Pool.perform (p : Pool) : Call → Except Fault Pool
  | .run n task => (p.runOn n task).map Prod.fst
  | .wait n => p.waitFor n

section Perform

variable {calls : List Call} {returns : List Return} {size : Nat} {p : Pool}

/-- What is known of the workers of a pool between two calls. -/
structure Pool.Tracks (size : Nat) (returns : List Return) (p : Pool) : Prop where
  /-- The pool has its size. -/
  sized : p.workers.size = size
  /-- The workers are what is known of them. -/
  workers : ∀ (n : Nat) (w : Worker), p.workers[n]? = some w → w.Tracks n returns .free

/-- What is known of the workers after one was replaced. -/
theorem Pool.Tracks.setWorker (h : p.Tracks size returns) {n : Nat} {w v : Worker}
    (hw : p.workers[n]? = some w) {r : Return} (hv : v.Tracks n (r :: returns) .free)
    (hothers : ∀ m ≠ n, sentTo m (r :: returns) = sentTo m returns ∧
      unwaited m (r :: returns) = unwaited m returns) :
    (p.setWorker n v).Tracks size (r :: returns) := by
  refine ⟨(p.size_setWorker n v).trans h.sized, fun m u hu => ?_⟩
  rcases Pool.getElem?_setWorker_cases hw hu with ⟨rfl, rfl⟩ | ⟨hne, hold⟩
  · exact hv
  · obtain ⟨hsent, hunwaited⟩ := hothers m hne
    obtain ⟨hkeeps, hcount, hblocked, hjoined⟩ := h.workers m u hold
    exact ⟨hsent ▸ hkeeps, fun hfree => hunwaited ▸ hcount hfree, hblocked, hjoined⟩

/-- A task for a worker of the pool is accepted. -/
theorem Pool.Tracks.runOn (h : p.Tracks size returns) {n : Nat} (hn : n < size) {task : Task}
    (htask : task.isQuiet = true) :
    ∃ p', p.runOn n task = .ok (p', true) ∧ p'.Tracks size (.ran n task true :: returns) := by
  obtain ⟨w, hw⟩ := Pool.exists_worker h.sized hn
  have hcounted := OwnedPool.tracks_counted (h.workers n w hw)
  have hdispatch : w.dispatch task =
      ({ w.count with queue := w.count.queue ++ [.run task] }, true) := by
    unfold Worker.dispatch
    rw [hcounted.keeps.send?_eq]
  refine ⟨_, ?_, h.setWorker hw (OwnedPool.tracks_sent hcounted htask) fun m hne =>
    ⟨sentTo_ran_of_ne hne.symm, unwaited_ran_of_ne hne.symm⟩⟩
  unfold Pool.runOn
  rw [Pool.worker_eq_ok hw]
  show Except.ok (p.setWorker n (w.dispatch task).1, (w.dispatch task).2) = _
  rw [hdispatch]

/-- Waiting for a worker of the pool leaves it with all run that it was sent. -/
theorem Pool.Tracks.waitFor (h : p.Tracks size returns) {n : Nat} (hn : n < size) :
    ∃ p', p.waitFor n = .ok p' ∧ p'.Tracks size (.waited n :: returns) := by
  obtain ⟨w, hw⟩ := Pool.exists_worker h.sized hn
  have hsettle := (h.workers n w hw).keeps.settle_eq
  have htracks : w.settle.Tracks n (.waited n :: returns) .free := by
    refine OwnedPool.tracks_waited ?_ (by rw [hsettle])
    rw [hsettle]
    exact Worker.keeps_settled (h.workers n w hw).keeps.quiet
  refine ⟨_, ?_, h.setWorker hw htracks fun m hne => ⟨rfl, unwaited_waited_of_ne hne.symm⟩⟩
  unfold Pool.waitFor
  rw [Pool.worker_eq_ok hw]
  rfl

/-- A call for a worker of the pool is answered as planned. -/
theorem Pool.Tracks.perform (h : p.Tracks size returns) {c : Call} (hc : c.worker < size)
    (hquiet : c.isQuiet = true) :
    ∃ p', p.perform c = .ok p' ∧ p'.Tracks size (c.granted :: returns) := by
  cases c with
  | run n task =>
    have hn : n < size := hc
    have htask : task.isQuiet = true := hquiet
    obtain ⟨p', hp', htracks⟩ := h.runOn hn htask
    refine ⟨p', ?_, htracks⟩
    show (p.runOn n task).map Prod.fst = _
    rw [hp']
    rfl
  | wait n => exact h.waitFor hc

/-- All calls for workers of the pool are answered as planned. -/
theorem Pool.Tracks.foldlM_perform (h : p.Tracks size returns) (hvalid : ∀ c ∈ calls, c.worker < size)
    (hquiet : ∀ c ∈ calls, c.isQuiet = true) :
    ∃ p', calls.foldlM Pool.perform p = .ok p' ∧
      p'.Tracks size ((calls.map Call.granted).reverse ++ returns) := by
  induction calls generalizing p returns with
  | nil => exact ⟨p, rfl, h⟩
  | cons c rest ih =>
    obtain ⟨hfirst, hrest⟩ := List.forall_mem_cons.mp hvalid
    obtain ⟨hquietFirst, hquietRest⟩ := List.forall_mem_cons.mp hquiet
    obtain ⟨p₁, hp₁, h₁⟩ := h.perform hfirst hquietFirst
    obtain ⟨p₂, hp₂, h₂⟩ := ih h₁ hrest hquietRest
    refine ⟨p₂, ?_, ?_⟩
    · rw [List.foldlM_cons, hp₁]
      exact hp₂
    · rw [List.map_cons, List.reverse_cons, List.append_assoc]
      exact h₂

/-- A worker that has been joined. -/
theorem Worker.Tracks.eq_of_joined {n : Nat} {w : Worker} (h : w.Tracks n returns .joined) :
    w = ⟨[], .exited, unwaited n returns, unwaited n returns, sentTo n returns⟩ := by
  have hpending : w.pending = unwaited n returns := h.count rfl
  rw [← hpending]
  exact h.keeps.eq_of_exited (h.joined rfl)

/-- A worker that is dismissed and runs to its end is as if it had been joined. -/
theorem Worker.Tracks.drain_dismiss {n : Nat} {w : Worker} (h : w.Tracks n returns .free) :
    w.dismiss.drain = ⟨[], .exited, unwaited n returns, unwaited n returns, sentTo n returns⟩ := by
  have hpending : w.dismiss.pending = unwaited n returns := (OwnedPool.tracks_dismissed h).count rfl
  rw [← hpending]
  exact h.keeps.dismiss.drain_eq

/-- Every schedule ends with the pool that is left if the calls are answered one at a time and the
workers then run to their end. -/
theorem OwnedPool.pool_of_closed {size : Nat} (hvalid : ∀ c ∈ calls, c.worker < max 1 size)
    (hquiet : ∀ c ∈ calls, c.isQuiet = true) {turns : List Turn} {s : OwnedPool}
    (hplay : (start size calls).play turns = some s) (hclosed : s.position = .closed) :
    (calls.foldlM Pool.perform (Pool.start size).1).map Pool.close = .ok s.pool := by
  have hstart := sound_start size hquiet
  have h := (hstart.play hvalid hplay).1
  have hfresh : (Pool.start size).1.Tracks (max 1 size) [] := ⟨hstart.sized, hstart.workers⟩
  obtain ⟨p, hp, htracks⟩ := hfresh.foldlM_perform hvalid hquiet
  rw [List.append_nil] at htracks
  have hworkers : p.close.workers = s.pool.workers := by
    refine Array.ext_getElem? fun n => ?_
    have hclose : p.close.workers[n]? = p.workers[n]?.map fun w => w.dismiss.drain :=
      Array.getElem?_map
    rw [hclose]
    by_cases hn : n < max 1 size
    · -- Both workers are gone and have run what the program sent to them.
      obtain ⟨w, hw⟩ := Pool.exists_worker htracks.sized hn
      obtain ⟨u, hu⟩ := Pool.exists_worker h.sized hn
      have hjoined := h.tracks hu .joined (by rw [hclosed]; rfl)
      have hreturns := (h.of_exited hu (hjoined.joined rfl)).1
      rw [hreturns] at hjoined
      rw [hw, hu, Option.map_some, (htracks.workers n w hw).drain_dismiss, ← hjoined.eq_of_joined]
    · rw [Pool.getElem?_eq_none htracks.sized hn, Pool.getElem?_eq_none h.sized hn, Option.map_none]
  rw [hp]
  exact congrArg (fun workers => Except.ok (Pool.mk workers)) hworkers

end Perform

end Transposition
