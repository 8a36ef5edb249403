import Transposition.Pool.Worker

/-!
# What a worker keeps

As long as no task leaves what cannot be dropped, a worker runs exactly what it was sent, in that order,
and its owner's count is that of the tasks not yet heard of. Both follow from one invariant
(`Worker.Keeps`), which every step of the worker keeps and every step of the owner keeps or moves by one
(`Worker.Keeps.step`, `Worker.Keeps.send_run` and so on).
What a wait and a closing leave can then be read off (`Worker.Keeps.eq_of_pending`,
`Worker.Keeps.of_exited`).
-/

namespace Transposition.Worker

variable {sent : List Task} {ahead : Nat} {dismissed : Bool} {w v : Worker}

/-! ## Where a task can be -/

/-- The tasks that are waiting in the queue. -/
def queued (w : Worker) : List Task := w.queue.filterMap Order.task?

/-- The task that is running, if there is one. -/
def inHand (w : Worker) : List Task :=
  match w.activity with
  | .running task => [task]
  | _ => []

/-- The number of tasks that have ended and of which the owner has not received the signal. -/
def unheard (w : Worker) : Nat :=
  w.signals +
    match w.activity with
    | .ended _ => 1
    | _ => 0

/-- What stands at the end of the queue: the order to stop, from a dismissal until the worker is
gone. -/
def farewell (dismissed : Bool) (w : Worker) : List Order :=
  if dismissed = true ∧ w.activity ≠ .exited then [.shutdown] else []

/-- Whether a worker is not being lost, neither now nor with its next step. -/
def Stays (w : Worker) : Prop :=
  match w.activity with
  | .ended task => task.isQuiet = true
  | .leaving => False
  | _ => True

/-- What holds of a worker to which the tasks `sent` were sent. The owner's count is ahead of it by the
tasks that are counted and not yet sent, or received and still counted. -/
structure Keeps (sent : List Task) (ahead : Nat) (dismissed : Bool) (w : Worker) : Prop where
  /-- The tasks sent are those that have run, the one that runs and those in the queue, in order. -/
  tasks : w.ran ++ w.inHand ++ w.queued = sent
  /-- The count is that of the tasks not heard of, and of those it is ahead by. -/
  count : w.pending = w.queued.length + w.inHand.length + w.unheard + ahead
  /-- No order follows the order to stop. -/
  queue : w.queue = w.queued.map .run ++ w.farewell dismissed
  /-- A worker is gone only after it has been dismissed and has emptied its queue. -/
  exited : w.activity = .exited → dismissed = true ∧ w.queue = []
  /-- No task leaves what cannot be dropped. -/
  quiet : ∀ task ∈ sent, task.isQuiet = true
  /-- The worker is not being lost. -/
  stays : w.Stays

/-- A worker that has run all that it was sent and of which all was heard. -/
theorem keeps_settled (hquiet : ∀ task ∈ sent, task.isQuiet = true) :
    Keeps sent 0 false ⟨[], .idle, 0, 0, sent⟩ :=
  ⟨by simp [inHand, queued], rfl, rfl, nofun, hquiet, trivial⟩

/-- A worker that has just been started. -/
theorem keeps_fresh : Keeps [] 0 false fresh := keeps_settled nofun

/-- A task that is running leaves nothing that cannot be dropped. -/
theorem Keeps.isQuiet_of_running (h : w.Keeps sent ahead dismissed) {task : Task}
    (hactivity : w.activity = .running task) : task.isQuiet = true := by
  refine h.quiet task ?_
  rw [← h.tasks]
  simp [inHand, hactivity]

/-- A worker that has ended a task is not lost over it. -/
theorem Keeps.isQuiet_of_ended (h : w.Keeps sent ahead dismissed) {task : Task}
    (hactivity : w.activity = .ended task) : task.isQuiet = true := by
  have hstays := h.stays
  unfold Stays at hstays
  rwa [hactivity] at hstays

/-- The worker is not lost. -/
theorem Keeps.not_leaving (h : w.Keeps sent ahead dismissed) : w.activity ≠ .leaving := by
  intro hactivity
  have hstays := h.stays
  unfold Stays at hstays
  rwa [hactivity] at hstays

/-! ## Steps of the worker -/

/-- A worker that takes a task from its queue. -/
theorem Keeps.take (h : w.Keeps sent ahead dismissed) {task : Task} {rest : List Order}
    (hactivity : w.activity = .idle) (hqueue : w.queue = .run task :: rest) :
    Keeps sent ahead dismissed { w with queue := rest, activity := .running task } := by
  obtain ⟨htasks, hcount, hrest, -, hquiet, -⟩ := h
  have hqueued : w.queued = task :: rest.filterMap Order.task? := by
    simp only [queued, hqueue, List.filterMap_cons, Order.task?]
  have hinHand : w.inHand = [] := by simp only [inHand, hactivity]
  have hunheard : w.unheard = w.signals := by simp only [unheard, hactivity, Nat.add_zero]
  rw [hqueued, hinHand, List.append_nil] at htasks
  rw [hqueued, hinHand, hunheard, List.length_cons, List.length_nil] at hcount
  rw [hqueued, hqueue, List.map_cons, List.cons_append, List.cons.injEq] at hrest
  refine ⟨?_, ?_, ?_, nofun, hquiet, trivial⟩
  · show w.ran ++ [task] ++ rest.filterMap Order.task? = sent
    rw [List.append_assoc]
    exact htasks
  · show w.pending = (rest.filterMap Order.task?).length + 1 + w.signals + ahead
    omega
  · show rest = (rest.filterMap Order.task?).map .run ++ farewell dismissed _
    simpa [farewell, hactivity] using hrest.2

/-- A worker that takes the order to stop has nothing else in its queue. -/
theorem Keeps.stop (h : w.Keeps sent ahead dismissed) {rest : List Order}
    (hactivity : w.activity = .idle) (hqueue : w.queue = .shutdown :: rest) :
    Keeps sent ahead dismissed { w with queue := rest, activity := .exited } := by
  obtain ⟨htasks, hcount, hrest, -, hquiet, -⟩ := h
  -- The queue begins with a task as long as there is one.
  have hqueued : w.queued = [] := by
    cases hq : w.queued with
    | nil => rfl
    | cons task others => rw [hq, hqueue, List.map_cons, List.cons_append] at hrest; cases hrest
  have hdismissed : dismissed = true ∧ rest = [] := by
    rw [hqueued, hqueue] at hrest
    cases dismissed <;> simp_all [farewell]
  obtain ⟨rfl, rfl⟩ := hdismissed
  have hinHand : w.inHand = [] := by simp only [inHand, hactivity]
  have hunheard : w.unheard = w.signals := by simp only [unheard, hactivity, Nat.add_zero]
  rw [hqueued, hinHand] at htasks hcount
  rw [hunheard] at hcount
  exact ⟨htasks, hcount, rfl, fun _ => ⟨rfl, rfl⟩, hquiet, trivial⟩

/-- A worker whose task ends. -/
theorem Keeps.finish (h : w.Keeps sent ahead dismissed) {task : Task}
    (hactivity : w.activity = .running task) :
    Keeps sent ahead dismissed { w with activity := .ended task, ran := w.ran ++ [task] } := by
  have htask := h.isQuiet_of_running hactivity
  obtain ⟨htasks, hcount, hrest, -, hquiet, -⟩ := h
  refine ⟨?_, ?_, ?_, nofun, hquiet, htask⟩
  · simpa [inHand, hactivity, queued] using htasks
  · simp only [inHand, unheard, hactivity, queued, List.length_cons, List.length_nil] at hcount ⊢
    omega
  · simpa [farewell, hactivity, queued] using hrest

/-- A worker that signals the end of a task. -/
theorem Keeps.signal (h : w.Keeps sent ahead dismissed) {task : Task}
    (hactivity : w.activity = .ended task) :
    Keeps sent ahead dismissed { w with activity := .idle, signals := w.signals + 1 } := by
  obtain ⟨htasks, hcount, hrest, -, hquiet, -⟩ := h
  refine ⟨?_, ?_, ?_, nofun, hquiet, trivial⟩
  · simpa [inHand, hactivity, queued] using htasks
  · simp only [inHand, unheard, hactivity, queued, List.length_nil] at hcount ⊢
    omega
  · simpa [farewell, hactivity, queued] using hrest

/-- Every step of the worker keeps the invariant. -/
theorem Keeps.step (h : w.Keeps sent ahead dismissed) (hs : w.step? = some v) :
    v.Keeps sent ahead dismissed := by
  obtain ⟨task, rest, hactivity, hqueue, rfl⟩ | ⟨rest, hactivity, hqueue, rfl⟩ |
    ⟨task, hactivity, rfl⟩ | ⟨task, hactivity, -, rfl⟩ | ⟨task, hactivity, hloud, -⟩ |
    ⟨hactivity, -⟩ := step?_cases hs
  · exact h.take hactivity hqueue
  · exact h.stop hactivity hqueue
  · exact h.finish hactivity
  · exact h.signal hactivity
  · -- Only over a task that leaves what cannot be dropped would the worker be lost.
    rw [h.isQuiet_of_ended hactivity] at hloud
    cases hloud
  · exact absurd hactivity h.not_leaving

/-- A step of the worker does not touch the owner's count. -/
theorem pending_of_step (hs : w.step? = some v) : v.pending = w.pending := by
  obtain ⟨_, _, -, -, rfl⟩ | ⟨_, -, -, rfl⟩ | ⟨_, -, rfl⟩ | ⟨_, -, -, rfl⟩ | ⟨_, -, -, rfl⟩ |
    ⟨-, rfl⟩ := step?_cases hs <;> rfl

/-- A worker that is gone takes no step. -/
theorem step?_of_exited (h : w.activity = .exited) : w.step? = none := by
  unfold step?
  rw [h]

/-! ## Steps of the owner -/

/-- Counting a task puts the count ahead by one. -/
theorem Keeps.count_up (h : w.Keeps sent ahead dismissed) :
    w.count.Keeps sent (ahead + 1) dismissed :=
  ⟨h.tasks, congrArg (· + 1) h.count, h.queue, h.exited, h.quiet, h.stays⟩

/-- Taking a task off the count takes back one by which it was ahead. -/
theorem Keeps.count_down (h : w.Keeps sent (ahead + 1) dismissed) :
    w.discount.Keeps sent ahead dismissed := by
  refine ⟨h.tasks, ?_, h.queue, h.exited, h.quiet, h.stays⟩
  show w.pending - 1 = _
  rw [h.count]
  rfl

/-- There is nothing to receive exactly if there is no signal. -/
theorem receive?_eq_none_iff : w.receive? = none ↔ w.signals = 0 := by
  unfold receive?
  split <;> simp_all

/-- Receiving a signal puts the count ahead by one. -/
theorem Keeps.receive (h : w.Keeps sent ahead dismissed) (hr : w.receive? = some v) :
    v.Keeps sent (ahead + 1) dismissed := by
  unfold receive? at hr
  split at hr
  · cases hr
  · rename_i signals hsignals
    cases hr
    refine ⟨h.tasks, ?_, h.queue, h.exited, h.quiet, h.stays⟩
    have hcount := h.count
    simp only [unheard, hsignals, queued, inHand] at hcount ⊢
    omega

/-- A worker that has not been dismissed is not gone. -/
theorem Keeps.alive (h : w.Keeps sent ahead false) : w.activity ≠ .exited :=
  fun hexited => Bool.noConfusion (h.exited hexited).1

/-- A worker that has not been dismissed can still send a signal. -/
theorem Keeps.not_isSilent (h : w.Keeps sent ahead false) : w.activity.isSilent = false := by
  have halive := h.alive
  have hstays := h.not_leaving
  cases hactivity : w.activity with
  | leaving => exact absurd hactivity hstays
  | exited => exact absurd hactivity halive
  | _ => rfl

/-- A worker that has not been dismissed gets every order. -/
theorem Keeps.send?_eq (h : w.Keeps sent ahead false) (order : Order) :
    w.send? order = some { w with queue := w.queue ++ [order] } := by
  unfold send?
  rw [if_neg h.alive]

/-- Sending a counted task uses up what the count is ahead by. -/
theorem Keeps.send_run (h : w.Keeps sent (ahead + 1) false) {task : Task}
    (htask : task.isQuiet = true) :
    Keeps (sent ++ [task]) ahead false { w with queue := w.queue ++ [.run task] } := by
  obtain ⟨htasks, hcount, hrest, hexited, hquiet, hstays⟩ := h
  have hall : ∀ t ∈ sent ++ [task], t.isQuiet = true := by
    intro t ht
    rcases List.mem_append.mp ht with ht | ht
    · exact hquiet t ht
    · exact List.mem_singleton.mp ht ▸ htask
  have hqueued : (w.queue ++ [Order.run task]).filterMap Order.task? = w.queued ++ [task] := by
    rw [List.filterMap_append]
    rfl
  refine ⟨?_, ?_, ?_, fun hgone => by simpa using hexited hgone, hall, hstays⟩
  · show w.ran ++ w.inHand ++ (w.queue ++ [Order.run task]).filterMap Order.task? = sent ++ [task]
    rw [hqueued, ← List.append_assoc, htasks]
  · show w.pending = ((w.queue ++ [Order.run task]).filterMap Order.task?).length +
      w.inHand.length + w.unheard + ahead
    rw [hqueued, List.length_append, List.length_singleton]
    omega
  · show w.queue ++ [.run task] =
      ((w.queue ++ [Order.run task]).filterMap Order.task?).map .run ++ []
    rw [hqueued, List.append_nil, List.map_append]
    simpa [farewell] using hrest

/-- A worker that is dismissed gets the order to stop. -/
theorem Keeps.dismiss_eq (h : w.Keeps sent ahead false) :
    w.dismiss = { w with queue := w.queue ++ [.shutdown] } := by
  unfold Worker.dismiss
  rw [h.send?_eq, Option.getD_some]

/-- A dismissal does not touch the owner's count. -/
theorem Keeps.pending_dismiss (h : w.Keeps sent ahead false) : w.dismiss.pending = w.pending := by
  rw [h.dismiss_eq]

/-- A worker that is dismissed gets the order after all others, and keeps what it was sent before. -/
theorem Keeps.dismiss (h : w.Keeps sent ahead false) : w.dismiss.Keeps sent ahead true := by
  have hactivity : w.activity ≠ .exited := h.alive
  have hqueued : (w.queue ++ [Order.shutdown]).filterMap Order.task? = w.queued := by
    rw [List.filterMap_append]
    exact List.append_nil _
  rw [h.dismiss_eq]
  obtain ⟨htasks, hcount, hrest, -, hquiet, hstays⟩ := h
  refine ⟨?_, ?_, ?_, fun hexited => absurd hexited hactivity, hquiet, hstays⟩
  · show w.ran ++ w.inHand ++ (w.queue ++ [Order.shutdown]).filterMap Order.task? = sent
    rw [hqueued]
    exact htasks
  · show w.pending = ((w.queue ++ [Order.shutdown]).filterMap Order.task?).length +
      w.inHand.length + w.unheard + ahead
    rw [hqueued]
    exact hcount
  · show w.queue ++ [.shutdown] =
      ((w.queue ++ [Order.shutdown]).filterMap Order.task?).map .run ++ farewell true _
    rw [hqueued]
    simpa [farewell, hactivity] using hrest

/-! ## What follows from the invariant -/

/-- A worker that is gone has run all that it was sent. -/
theorem Keeps.of_exited (h : w.Keeps sent ahead dismissed) (hexited : w.activity = .exited) :
    w.queue = [] ∧ w.ran = sent := by
  have hqueue := (h.exited hexited).2
  have htasks := h.tasks
  simp only [inHand, hexited, queued, hqueue, List.filterMap_nil, List.append_nil] at htasks
  exact ⟨hqueue, htasks⟩

/-- If the count is down to zero, the worker is idle, with nothing left to run or to signal, and has run
all that it was sent. -/
theorem Keeps.eq_of_pending (h : w.Keeps sent ahead false) (hpending : w.pending = 0) :
    w = ⟨[], .idle, 0, 0, sent⟩ := by
  have hcount := h.count
  rw [hpending] at hcount
  have hqueued : w.queued = [] := List.eq_nil_of_length_eq_zero (by omega)
  have hinHand : w.inHand = [] := List.eq_nil_of_length_eq_zero (by omega)
  have hunheard : w.unheard = 0 := by omega
  have hqueue : w.queue = [] := by
    have hrest := h.queue
    rw [hqueued] at hrest
    simpa [farewell] using hrest
  have hran : w.ran = sent := by
    have htasks := h.tasks
    rwa [hinHand, hqueued, List.append_nil, List.append_nil] at htasks
  have hsignals : w.signals = 0 := by
    unfold unheard at hunheard
    omega
  have hactivity : w.activity = .idle := by
    cases ha : w.activity with
    | idle => rfl
    | running task => simp [inHand, ha] at hinHand
    | ended task => simp [unheard, ha] at hunheard
    | leaving => exact absurd ha h.not_leaving
    | exited => exact absurd ha h.alive
  obtain ⟨queue, activity, signals, pending, ran⟩ := w
  cases hqueue
  cases hactivity
  cases hsignals
  cases hpending
  cases hran
  rfl

/-- A worker that has tasks to signal, or has been dismissed and is not gone, has a next step. -/
theorem Keeps.exists_step (h : w.Keeps sent ahead dismissed) (hnot : w.activity ≠ .exited)
    (hleft : dismissed = true ∨ w.signals + ahead < w.pending) : ∃ v, w.step? = some v := by
  cases hactivity : w.activity with
  | exited => exact absurd hactivity hnot
  | running task => exact Option.isSome_iff_exists.mp (by simp [step?, hactivity])
  | ended task =>
    have hquiet := h.isQuiet_of_ended hactivity
    exact Option.isSome_iff_exists.mp (by simp [step?, hactivity, hquiet])
  | leaving => exact absurd hactivity h.not_leaving
  | idle =>
    cases hq : w.queue with
    | cons order rest =>
      cases order <;> exact Option.isSome_iff_exists.mp (by simp [step?, hactivity, hq])
    | nil =>
      -- An idle worker with an empty queue owes nothing.
      have hcount := h.count
      have hqueue := h.queue
      simp only [queued, hq, List.filterMap_nil, inHand, unheard, hactivity, List.length_nil] at hcount
      simp only [queued, hq, List.filterMap_nil, List.map_nil, List.nil_append, farewell,
        hactivity] at hqueue
      rcases hleft with hdismissed | hlt
      · simp [hdismissed] at hqueue
      · omega

/-! ## Waiting and closing in one go -/

/-- Waiting for a worker leaves it idle, with nothing left to run or to signal, and all run that it was
sent. -/
theorem Keeps.settle_eq (h : w.Keeps sent 0 false) : w.settle = ⟨[], .idle, 0, 0, sent⟩ := by
  induction w using settle.induct with
  | case1 w hpending =>
    rw [settle, if_pos hpending]
    exact h.eq_of_pending hpending
  | case2 w hpending v hr ih =>
    rw [settle, if_neg hpending, hr]
    exact ih (h.receive hr).count_down
  | case3 w hpending hr v hs ih =>
    rw [settle, if_neg hpending, hr, hs]
    exact ih (h.step hs)
  | case4 w hpending hr hs hexited => exact absurd hexited h.alive
  | case5 w hpending hr hs hexited =>
    -- Without a signal the counted task is still the worker's, so that it has a step to take.
    have hsignals := receive?_eq_none_iff.mp hr
    obtain ⟨v, hv⟩ := h.exists_step h.alive (.inr (by omega))
    rw [hs] at hv
    cases hv

/-- A worker that is gone, and what its owner has not collected. -/
theorem Keeps.eq_of_exited (h : w.Keeps sent 0 dismissed) (hexited : w.activity = .exited) :
    w = ⟨[], .exited, w.pending, w.pending, sent⟩ := by
  obtain ⟨hqueue, hran⟩ := h.of_exited hexited
  have hsignals : w.pending = w.signals := by
    have hcount := h.count
    simpa [queued, hqueue, inHand, unheard, hexited] using hcount
  obtain ⟨queue, activity, signals, pending, ran⟩ := w
  cases hqueue
  cases hexited
  cases hsignals
  cases hran
  rfl

/-- Letting a worker run that has been dismissed leaves it gone, with all run that it was sent and the
owner's count untouched. -/
theorem Keeps.drain_eq (h : w.Keeps sent 0 true) :
    w.drain = ⟨[], .exited, w.pending, w.pending, sent⟩ := by
  induction w using drain.induct with
  | case1 w v hs ih =>
    rw [drain, hs, ← pending_of_step hs]
    exact ih (h.step hs)
  | case2 w hs =>
    have hexited : w.activity = .exited := by
      refine Decidable.byContradiction fun hnot => ?_
      obtain ⟨v, hv⟩ := h.exists_step hnot (.inl rfl)
      rw [hs] at hv
      cases hv
    rw [drain, hs]
    exact h.eq_of_exited hexited

end Transposition.Worker
