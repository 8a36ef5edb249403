import Transposition.Pool.Schedule
import Transposition.Proofs.Worker

/-!
# What every schedule of a pool keeps

Of each worker everything is known from the calls that have returned and from where the owner is: the
tasks that were sent to it (`sentTo`), by how much its count is ahead, and whether it was dismissed or
has been joined (`Position.stance`). `OwnedPool.Sound` says this of all workers at once, and that the
program goes as planned: every task was accepted, no worker is gone before its time, and no call is
for a worker that there is not. It takes tasks that leave nothing which cannot be dropped.

`OwnedPool.Moves` lists what the owner can do in such a state, and `OwnedPool.Blocked` when it can do
nothing (`OwnedPool.Sound.moves_or_blocked`). Each of its steps keeps the state sound
(`OwnedPool.Sound.of_moves`), as every step of a worker does (`OwnedPool.Sound.workerStep`).
-/

namespace Transposition

/-! ## What calls leave -/

/-- What a call returns if all goes as planned. -/
def Call.granted : Call → Return
  | run n task => .ran n task true
  | wait n => .waited n

/-- The tasks that were sent to a worker by the calls that have returned, the oldest first. -/
def sentTo (number : Nat) : List Return → List Task
  | [] => []
  | .ran n task accepted :: older =>
    sentTo number older ++ if n = number ∧ accepted = true then [task] else []
  | .waited _ :: older => sentTo number older

/-- The number of tasks that were sent to a worker since it was last waited for. -/
def unwaited (number : Nat) : List Return → Nat
  | [] => 0
  | .ran n _ accepted :: older =>
    unwaited number older + if n = number ∧ accepted = true then 1 else 0
  | .waited n :: older => if n = number then 0 else unwaited number older

section Returns

variable {n number : Nat} {task : Task} {accepted : Bool} {older : List Return}

@[simp]
theorem sentTo_ran_self : sentTo n (.ran n task true :: older) = sentTo n older ++ [task] := by
  simp [sentTo]

@[simp]
theorem sentTo_ran_of_ne (h : n ≠ number) :
    sentTo number (.ran n task accepted :: older) = sentTo number older := by
  simp [sentTo, h]

@[simp]
theorem unwaited_ran_self : unwaited n (.ran n task true :: older) = unwaited n older + 1 := by
  simp [unwaited]

@[simp]
theorem unwaited_ran_of_ne (h : n ≠ number) :
    unwaited number (.ran n task accepted :: older) = unwaited number older := by
  simp [unwaited, h]

@[simp]
theorem unwaited_waited_self : unwaited n (.waited n :: older) = 0 := if_pos rfl

@[simp]
theorem unwaited_waited_of_ne (h : n ≠ number) :
    unwaited number (.waited n :: older) = unwaited number older := if_neg h

end Returns

/-! ## Where the owner is, as a worker sees it -/

/-- The call that the owner is in. -/
def Position.call? : Position → Option Call
  | sending n task => some (.run n task)
  | refusing n task => some (.run n task)
  | waiting n => some (.wait n)
  | receiving n => some (.wait n)
  | collecting n => some (.wait n)
  | losing n => some (.wait n)
  | between | dismissing _ | joining _ | closed | stopped _ => none

/-- Whether the owner has come to the end of its calls. -/
def Position.isClosing : Position → Bool
  | dismissing _ | joining _ | closed => true
  | _ => false

/-- Whether something has gone wrong that never does. -/
def Position.isFailure : Position → Bool
  | refusing _ _ | losing _ | stopped _ => true
  | _ => false

/-- What the owner is about to do with a worker. -/
inductive Stance
  /-- Nothing. -/
  | free
  /-- It has counted a task for the worker and is about to send it. -/
  | counted
  /-- It is waiting for the worker, and the count is ahead by so many. -/
  | waiting (ahead : Nat)
  /-- It is waiting for a signal of the worker, because there is a task on the count. -/
  | blocked
  /-- It has dismissed the worker. -/
  | dismissed
  /-- It has seen the worker go. -/
  | joined
  deriving DecidableEq, Repr

/-- By how many tasks the count is ahead. -/
def Stance.ahead : Stance → Nat
  | counted => 1
  | waiting ahead => ahead
  | _ => 0

/-- Whether the owner is waiting for the worker. -/
def Stance.isWaiting : Stance → Bool
  | waiting _ | blocked => true
  | _ => false

/-- Whether the worker has been dismissed. -/
def Stance.isDismissed : Stance → Bool
  | dismissed | joined => true
  | _ => false

/-- The stance of the owner to a worker. -/
def Position.stance (number : Nat) : Position → Stance
  | sending n _ => if n = number then .counted else .free
  | refusing n _ => if n = number then .counted else .free
  | waiting n => if n = number then .waiting 0 else .free
  | receiving n => if n = number then .blocked else .free
  | collecting n => if n = number then .waiting 1 else .free
  | losing n => if n = number then .waiting 0 else .free
  | dismissing n => if number < n then .dismissed else .free
  | joining n => if number < n then .joined else .dismissed
  | closed => .joined
  | between | stopped _ => .free

/-- In a call for another worker the owner has nothing to do with a worker. -/
theorem Position.stance_of_call {p : Position} {c : Call} {m : Nat} (hc : p.call? = some c)
    (hne : c.worker ≠ m) : p.stance m = .free := by
  cases p <;> cases hc <;> exact if_neg hne

/-- In no call the owner has nothing to do with a worker, or is past all calls. -/
theorem Position.stance_of_no_call {p : Position} (m : Nat) (hc : p.call? = none) :
    p.stance m = .free ∨ p.isClosing = true ∧ (p.stance m = .dismissed ∨ p.stance m = .joined) := by
  cases p with
  | between => exact .inl rfl
  | stopped fault => exact .inl rfl
  | closed => exact .inr ⟨rfl, .inr rfl⟩
  | dismissing n =>
    by_cases hm : m < n
    · exact .inr ⟨rfl, .inl (if_pos hm)⟩
    · exact .inl (if_neg hm)
  | joining n =>
    by_cases hm : m < n
    · exact .inr ⟨rfl, .inr (if_pos hm)⟩
    · exact .inr ⟨rfl, .inl (if_neg hm)⟩
  | _ => cases hc

/-- In a call the owner is not past all calls. -/
theorem Position.not_isClosing_of_call {p : Position} {c : Call} (hc : p.call? = some c) :
    p.isClosing = false := by
  cases p <;> cases hc <;> rfl

/-- What is known of a worker from the calls that have returned and the owner's stance. -/
structure Worker.Tracks (number : Nat) (returns : List Return) (stance : Stance) (w : Worker) :
    Prop where
  /-- It was sent the tasks of these calls. -/
  keeps : w.Keeps (sentTo number returns) stance.ahead stance.isDismissed
  /-- Unless the owner is waiting for it, the count is that of the tasks sent since it did. -/
  count : stance.isWaiting = false → w.pending = unwaited number returns + stance.ahead
  /-- When a signal of it is waited for, a task is counted. -/
  blocked : stance = .blocked → w.pending ≠ 0
  /-- When it has been joined, it is gone. -/
  joined : stance = .joined → w.activity = .exited

/-! ## Workers of a pool -/

section Workers

variable {p : Pool} {n m : Nat} {w u : Worker}

/-- The worker of a number, if there is one. -/
theorem Pool.worker_eq_ok (hw : p.workers[n]? = some w) : p.worker n = .ok w := by
  unfold Pool.worker
  rw [hw]

/-- A number below the size of a pool is that of a worker. -/
theorem Pool.exists_worker {size : Nat} (hsize : p.workers.size = size) (hn : n < size) :
    ∃ w, p.workers[n]? = some w :=
  ⟨_, Array.getElem?_eq_getElem (hsize ▸ hn)⟩

/-- There is no worker of another number. -/
theorem Pool.getElem?_eq_none {size : Nat} (hsize : p.workers.size = size) (hn : ¬n < size) :
    p.workers[n]? = none := by
  rw [Array.getElem?_eq_none_iff, hsize]
  exact Nat.le_of_not_lt hn

theorem Pool.size_setWorker (p : Pool) (n : Nat) (v : Worker) :
    (p.setWorker n v).workers.size = p.workers.size :=
  Array.size_setIfInBounds

/-- A worker that was replaced. -/
theorem Pool.getElem?_setWorker_self (hw : p.workers[n]? = some w) (v : Worker) :
    (p.setWorker n v).workers[n]? = some v :=
  Array.getElem?_setIfInBounds_self_of_lt (Array.getElem?_eq_some_iff.mp hw).1

/-- A worker of a pool with one replaced is that one or another as it was. -/
theorem Pool.getElem?_setWorker_cases {v : Worker} (hw : p.workers[n]? = some w)
    (hu : (p.setWorker n v).workers[m]? = some u) :
    (m = n ∧ u = v) ∨ (m ≠ n ∧ p.workers[m]? = some u) := by
  by_cases hm : m = n
  · rw [hm, getElem?_setWorker_self hw, Option.some.injEq] at hu
    exact .inl ⟨hm, hu.symm⟩
  · have hother : (p.setWorker n v).workers[m]? = p.workers[m]? :=
      Array.getElem?_setIfInBounds_ne (Ne.symm hm)
    exact .inr ⟨hm, hother ▸ hu⟩

end Workers

namespace OwnedPool

variable {calls : List Call} {size n m : Nat} {s s' : OwnedPool} {w v : Worker}

/-- What holds of a pool of so many workers in the middle of a program of these calls. -/
structure Sound (size : Nat) (calls : List Call) (s : OwnedPool) : Prop where
  /-- The pool has its size. -/
  sized : s.pool.workers.size = size
  /-- The calls of the program are those that have returned, as planned, that in which the owner is,
  and those that it has not begun. -/
  program : ∃ past, s.returns = (past.map Call.granted).reverse ∧
    past ++ s.position.call?.toList ++ s.calls = calls
  /-- No task of the program leaves what cannot be dropped. -/
  quiet : ∀ c ∈ calls, c.isQuiet = true
  /-- The pool is closed after the last call. -/
  closing : s.position.isClosing = true → s.calls = []
  /-- Nothing has gone wrong. -/
  regular : s.position.isFailure = false
  /-- The owner has nothing to report but the start. -/
  notices : ∀ notice ∈ s.notices,
    notice = .poolStarted size ∨ ∃ number, notice = .taskPanicked (Pool.workerName number)
  /-- The workers are what is known of them. -/
  workers : ∀ (number : Nat) (w : Worker), s.pool.workers[number]? = some w →
    w.Tracks number s.returns (s.position.stance number)

/-- A step at a worker of the pool is a step of that worker. -/
theorem atWorker_eq (hw : s.pool.workers[n]? = some w) (step : Worker → Option OwnedPool) :
    s.atWorker n step = step w := by
  unfold atWorker
  rw [Pool.worker_eq_ok hw]

/-- A number of a call that has not returned is that of a worker. -/
theorem Sound.exists_worker (h : s.Sound size calls) (hvalid : ∀ c ∈ calls, c.worker < size)
    {c : Call} (hc : s.position.call? = some c ∨ c ∈ s.calls) :
    ∃ w, s.pool.workers[c.worker]? = some w := by
  obtain ⟨past, -, hprogram⟩ := h.program
  have hmem : c ∈ calls := by
    rw [← hprogram]
    rcases hc with hc | hc <;> simp [hc]
  exact Pool.exists_worker h.sized (hvalid c hmem)

/-- The call that the owner is in is for no task that leaves what cannot be dropped. -/
theorem Sound.isQuiet_of_call (h : s.Sound size calls) {c : Call} (hc : s.position.call? = some c) :
    c.isQuiet = true := by
  obtain ⟨past, -, hprogram⟩ := h.program
  refine h.quiet c ?_
  rw [← hprogram, hc]
  simp

/-- What is known of a worker for which the owner has a certain stance. -/
theorem Sound.tracks (h : s.Sound size calls) (hw : s.pool.workers[n]? = some w) (stance : Stance)
    (hstance : s.position.stance n = stance) : w.Tracks n s.returns stance :=
  hstance ▸ h.workers n w hw

/-! ## What the owner does -/

/-- The steps of the owner as long as nothing goes wrong. -/
inductive Moves (s : OwnedPool) : OwnedPool → Prop
  /-- A dispatch begins, and counts its task. -/
  | count {n : Nat} {task : Task} {rest : List Call} {w : Worker} (place : s.position = .between)
      (next : s.calls = .run n task :: rest) (worker : s.pool.workers[n]? = some w) :
      Moves s { (s.put n w.count).goto (.sending n task) with calls := rest }
  /-- The counted task is sent, and the dispatch returns. -/
  | send {n : Nat} {task : Task} {w v : Worker} (place : s.position = .sending n task)
      (worker : s.pool.workers[n]? = some w) (sent : w.send? (.run task) = some v) :
      Moves s ((s.put n v).leave (.ran n task true))
  /-- A wait begins. -/
  | begin {n : Nat} {rest : List Call} {w : Worker} (place : s.position = .between)
      (next : s.calls = .wait n :: rest) (worker : s.pool.workers[n]? = some w) :
      Moves s { s.goto (.waiting n) with calls := rest }
  /-- No task is counted, and the wait returns. -/
  | leave {n : Nat} {w : Worker} (place : s.position = .waiting n)
      (worker : s.pool.workers[n]? = some w) (none : w.pending = 0) : Moves s (s.leave (.waited n))
  /-- A task is counted, and its signal is waited for. -/
  | enter {n : Nat} {w : Worker} (place : s.position = .waiting n)
      (worker : s.pool.workers[n]? = some w) (some : w.pending ≠ 0) : Moves s (s.goto (.receiving n))
  /-- A signal is received. -/
  | receive {n : Nat} {w v : Worker} (place : s.position = .receiving n)
      (worker : s.pool.workers[n]? = some w) (received : w.receive? = some v) :
      Moves s ((s.put n v).goto (.collecting n))
  /-- Its task is taken off the count. -/
  | collect {n : Nat} {w : Worker} (place : s.position = .collecting n)
      (worker : s.pool.workers[n]? = some w) : Moves s ((s.put n w.discount).goto (.waiting n))
  /-- No call is left, and the pool is about to be closed. -/
  | close (place : s.position = .between) (next : s.calls = []) : Moves s (s.goto (.dismissing 0))
  /-- The next worker is dismissed. -/
  | dismiss {n : Nat} {w : Worker} (place : s.position = .dismissing n)
      (worker : s.pool.workers[n]? = some w) :
      Moves s ((s.put n w.dismiss).goto (.dismissing (n + 1)))
  /-- All workers are dismissed. -/
  | turn {n : Nat} (place : s.position = .dismissing n) (last : s.pool.workers[n]? = none) :
      Moves s (s.goto (.joining 0))
  /-- The next worker is gone. -/
  | join {n : Nat} {w : Worker} (place : s.position = .joining n)
      (worker : s.pool.workers[n]? = some w) (gone : w.activity = .exited) :
      Moves s (s.goto (.joining (n + 1)))
  /-- All workers are gone. -/
  | finish {n : Nat} (place : s.position = .joining n) (last : s.pool.workers[n]? = none) :
      Moves s (s.goto .closed)

/-- What keeps the owner from taking a step as long as nothing goes wrong. -/
inductive Blocked (s : OwnedPool) : Prop
  /-- A signal is waited for that has not come. -/
  | receive {n : Nat} {w : Worker} (place : s.position = .receiving n)
      (worker : s.pool.workers[n]? = some w) (silent : w.receive? = none) : Blocked s
  /-- The next worker is not gone yet. -/
  | join {n : Nat} {w : Worker} (place : s.position = .joining n)
      (worker : s.pool.workers[n]? = some w) (alive : w.activity ≠ .exited) : Blocked s
  /-- The pool is closed, and nothing is left to do. -/
  | closed (place : s.position = .closed) : Blocked s

/-- In a sound state the owner takes one of these steps, or is blocked. -/
theorem Sound.moves_or_blocked (h : s.Sound size calls) (hvalid : ∀ c ∈ calls, c.worker < size) :
    (∃ s', s.ownerStep? = some s' ∧ s.Moves s') ∨ s.ownerStep? = none ∧ s.Blocked := by
  have hregular := h.regular
  have hexists := fun c => h.exists_worker hvalid (c := c)
  unfold ownerStep?
  cases hposition : s.position with
  | between =>
    cases hcalls : s.calls with
    | nil => exact .inl ⟨_, rfl, .close hposition hcalls⟩
    | cons c rest =>
      obtain ⟨w, hw⟩ := hexists c (.inr (by simp [hcalls]))
      cases c with
      | run n task => exact .inl ⟨_, atWorker_eq hw _, .count hposition hcalls hw⟩
      | wait n => exact .inl ⟨_, atWorker_eq hw _, .begin hposition hcalls hw⟩
  | sending n task =>
    obtain ⟨w, hw⟩ := hexists (.run n task) (.inl (by rw [hposition]; rfl))
    -- The worker has not been dismissed, so it gets the task.
    have htracks := h.tracks hw .counted (by rw [hposition]; exact if_pos rfl)
    have hsent := htracks.keeps.send?_eq (.run task)
    refine .inl ⟨_, ?_, .send hposition hw hsent⟩
    simp only [atWorker_eq (n := n) hw, hsent]
  | waiting n =>
    obtain ⟨w, hw⟩ := hexists (.wait n) (.inl (by rw [hposition]; rfl))
    simp only [atWorker_eq (n := n) hw]
    by_cases hpending : w.pending = 0
    · rw [if_pos hpending]
      exact .inl ⟨_, rfl, .leave hposition hw hpending⟩
    · rw [if_neg hpending]
      exact .inl ⟨_, rfl, .enter hposition hw hpending⟩
  | receiving n =>
    obtain ⟨w, hw⟩ := hexists (.wait n) (.inl (by rw [hposition]; rfl))
    -- The worker has not been dismissed, so without a signal the owner is blocked.
    have htracks := h.tracks hw .blocked (by rw [hposition]; exact if_pos rfl)
    have hsilent : w.activity.isSilent = false := htracks.keeps.not_isSilent
    simp only [atWorker_eq (n := n) hw]
    cases hr : w.receive? with
    | none => exact .inr ⟨if_neg (Bool.eq_false_iff.mp hsilent), .receive hposition hw hr⟩
    | some v => exact .inl ⟨_, rfl, .receive hposition hw hr⟩
  | collecting n =>
    obtain ⟨w, hw⟩ := hexists (.wait n) (.inl (by rw [hposition]; rfl))
    exact .inl ⟨_, atWorker_eq hw _, .collect hposition hw⟩
  | dismissing n =>
    cases hw : s.pool.workers[n]? with
    | none => exact .inl ⟨_, by simp only [hw], .turn hposition hw⟩
    | some w => exact .inl ⟨_, by simp only [hw], .dismiss hposition hw⟩
  | joining n =>
    cases hw : s.pool.workers[n]? with
    | none => exact .inl ⟨_, by simp only [hw], .finish hposition hw⟩
    | some w =>
      by_cases hgone : w.activity = .exited
      · exact .inl ⟨_, by simp only [hw, if_pos hgone], .join hposition hw hgone⟩
      · exact .inr ⟨by simp only [hw, if_neg hgone], .join hposition hw hgone⟩
  | closed => exact .inr ⟨rfl, .closed hposition⟩
  | refusing n task => simp [hposition, Position.isFailure] at hregular
  | losing n => simp [hposition, Position.isFailure] at hregular
  | stopped fault => simp [hposition, Position.isFailure] at hregular

/-- Every step that the owner takes in a sound state is one of these. -/
theorem Sound.moves (h : s.Sound size calls) (hvalid : ∀ c ∈ calls, c.worker < size)
    (hs : s.ownerStep? = some s') : s.Moves s' := by
  rcases h.moves_or_blocked hvalid with ⟨t, ht, hmoves⟩ | ⟨hnone, -⟩
  · rw [hs, Option.some.injEq] at ht
    exact ht ▸ hmoves
  · rw [hs] at hnone
    cases hnone

/-! ## Sound states stay sound -/

/-- What is known of a worker for which a task is counted. -/
theorem tracks_counted {returns : List Return} (h : w.Tracks n returns .free) :
    w.count.Tracks n returns .counted :=
  ⟨h.keeps.count_up, fun _ => congrArg (· + 1) (h.count rfl), nofun, nofun⟩

/-- What is known of a worker to which the counted task is sent. -/
theorem tracks_sent {returns : List Return} (h : w.Tracks n returns .counted) {task : Task}
    (htask : task.isQuiet = true) :
    Worker.Tracks n (.ran n task true :: returns) .free
      { w with queue := w.queue ++ [.run task] } := by
  refine ⟨?_, fun _ => ?_, nofun, nofun⟩
  · rw [sentTo_ran_self]
    exact h.keeps.send_run htask
  · rw [unwaited_ran_self]
    exact h.count rfl

/-- What is known of a worker that is waited for. -/
theorem tracks_waiting {returns : List Return} {ahead : Nat}
    (h : w.Keeps (sentTo n returns) ahead false) : w.Tracks n returns (.waiting ahead) :=
  ⟨h, nofun, nofun, nofun⟩

/-- What is known of a worker of which a signal is waited for. -/
theorem tracks_blocked {returns : List Return} (h : w.Keeps (sentTo n returns) 0 false)
    (hpending : w.pending ≠ 0) : w.Tracks n returns .blocked :=
  ⟨h, nofun, fun _ => hpending, nofun⟩

/-- What is known of a worker that has been waited for. -/
theorem tracks_waited {returns : List Return} (h : w.Keeps (sentTo n returns) 0 false)
    (hpending : w.pending = 0) : w.Tracks n (.waited n :: returns) .free :=
  ⟨h, fun _ => hpending.trans unwaited_waited_self.symm, nofun, nofun⟩

/-- What is known of a worker that the owner dismisses. -/
theorem tracks_dismissed {returns : List Return} (h : w.Tracks n returns .free) :
    w.dismiss.Tracks n returns .dismissed :=
  ⟨h.keeps.dismiss, fun _ => h.keeps.pending_dismiss.trans (h.count rfl), nofun, nofun⟩

/-- A worker has a lower number than one that there is not. -/
theorem lt_of_last (hlast : s.pool.workers[n]? = none) (hw : s.pool.workers[m]? = some w) : m < n := by
  have hsize := Array.getElem?_eq_none_iff.mp hlast
  have hlt := (Array.getElem?_eq_some_iff.mp hw).1
  omega

/-- What is known of the workers stays known if one changes as it should, and the owner's stance to the
others and the calls for them stay. -/
theorem Sound.tracks_put (h : s.Sound size calls) (hw : s.pool.workers[n]? = some w)
    {position : Position} {returns : List Return} {stance : Stance}
    (hstance : position.stance n = stance) (hv : v.Tracks n returns stance)
    (hothers : ∀ m ≠ n, position.stance m = s.position.stance m ∧
      sentTo m returns = sentTo m s.returns ∧ unwaited m returns = unwaited m s.returns)
    (m : Nat) (u : Worker) (hu : (s.put n v).pool.workers[m]? = some u) :
    u.Tracks m returns (position.stance m) := by
  rcases Pool.getElem?_setWorker_cases hw hu with ⟨rfl, rfl⟩ | ⟨hne, hold⟩
  · rw [hstance]
    exact hv
  · obtain ⟨hkept, hsent, hunwaited⟩ := hothers m hne
    obtain ⟨hkeeps, hcount, hblocked, hjoined⟩ := h.tracks hold _ hkept.symm
    exact ⟨hsent ▸ hkeeps, fun hfree => hunwaited ▸ hcount hfree, hblocked, hjoined⟩

/-- To replace a worker by itself changes nothing. -/
theorem put_self (hw : s.pool.workers[n]? = some w) : s.put n w = s := by
  have hworkers : s.pool.workers.setIfInBounds n w = s.pool.workers := by
    obtain ⟨hlt, rfl⟩ := Array.getElem?_eq_some_iff.mp hw
    rw [Array.setIfInBounds_def, dif_pos hlt, Array.set_getElem_self]
  show { s with pool := ⟨s.pool.workers.setIfInBounds n w⟩ } = s
  rw [hworkers]

/-- The owner begins a call. -/
theorem Sound.enter_call (h : s.Sound size calls) (place : s.position = .between) {c : Call}
    {rest : List Call} (next : s.calls = c :: rest) (hw : s.pool.workers[c.worker]? = some w)
    {position : Position} (hcall : position.call? = some c) (hregular : position.isFailure = false)
    {stance : Stance} (hstance : position.stance c.worker = stance)
    (hv : v.Tracks c.worker s.returns stance) :
    Sound size calls { (s.put c.worker v).goto position with calls := rest } := by
  obtain ⟨past, hreturns, hprogram⟩ := h.program
  rw [place, next] at hprogram
  refine ⟨(Pool.size_setWorker ..).trans h.sized, ⟨past, hreturns, ?_⟩, h.quiet,
    fun hclosing => ?_, hregular, h.notices,
    h.tracks_put hw hstance hv fun m hne => ⟨?_, rfl, rfl⟩⟩
  · show past ++ position.call?.toList ++ rest = calls
    rw [hcall]
    simpa [Position.call?] using hprogram
  · exact Bool.noConfusion (hclosing.symm.trans (Position.not_isClosing_of_call hcall))
  · rw [place]
    exact Position.stance_of_call hcall hne.symm

/-- The owner goes on in a call. -/
theorem Sound.within_call (h : s.Sound size calls) {c : Call} (hin : s.position.call? = some c)
    (hw : s.pool.workers[c.worker]? = some w) {position : Position}
    (hcall : position.call? = some c) (hregular : position.isFailure = false) {stance : Stance}
    (hstance : position.stance c.worker = stance) (hv : v.Tracks c.worker s.returns stance) :
    ((s.put c.worker v).goto position).Sound size calls := by
  obtain ⟨past, hreturns, hprogram⟩ := h.program
  rw [hin, ← hcall] at hprogram
  refine ⟨(Pool.size_setWorker ..).trans h.sized, ⟨past, hreturns, hprogram⟩, h.quiet,
    fun hclosing => ?_, hregular, h.notices,
    h.tracks_put hw hstance hv fun m hne => ⟨?_, rfl, rfl⟩⟩
  · exact Bool.noConfusion (hclosing.symm.trans (Position.not_isClosing_of_call hcall))
  · exact (Position.stance_of_call hcall hne.symm).trans
      (Position.stance_of_call hin hne.symm).symm

/-- The call that the owner is in returns as planned. -/
theorem Sound.leave_call (h : s.Sound size calls) {c : Call} (hin : s.position.call? = some c)
    (hw : s.pool.workers[c.worker]? = some w)
    (hv : v.Tracks c.worker (c.granted :: s.returns) .free) :
    ((s.put c.worker v).leave c.granted).Sound size calls := by
  obtain ⟨past, hreturns, hprogram⟩ := h.program
  rw [hin] at hprogram
  refine ⟨(Pool.size_setWorker ..).trans h.sized, ⟨past ++ [c], ?_, ?_⟩, h.quiet, nofun, rfl,
    h.notices, h.tracks_put hw rfl hv fun m hne => ⟨?_, ?_⟩⟩
  · show c.granted :: s.returns = _
    rw [hreturns, List.map_append, List.reverse_append]
    rfl
  · show past ++ [c] ++ [] ++ s.calls = calls
    simpa using hprogram
  · exact (Position.stance_of_call hin hne.symm).symm
  · cases c with
    | run n task => exact ⟨sentTo_ran_of_ne hne.symm, unwaited_ran_of_ne hne.symm⟩
    | wait n => exact ⟨rfl, unwaited_waited_of_ne hne.symm⟩

/-- The owner goes on after its last call. -/
theorem Sound.at_end (h : s.Sound size calls) (hin : s.position.call? = none) (hlast : s.calls = [])
    {pool : Pool} (hsize : pool.workers.size = s.pool.workers.size) {position : Position}
    (hcall : position.call? = none) (hregular : position.isFailure = false)
    (hworkers : ∀ (m : Nat) (u : Worker), pool.workers[m]? = some u →
      u.Tracks m s.returns (position.stance m)) :
    Sound size calls { s with pool, position } := by
  obtain ⟨past, hreturns, hprogram⟩ := h.program
  rw [hin, ← hcall] at hprogram
  exact ⟨hsize.trans h.sized, ⟨past, hreturns, hprogram⟩, h.quiet, fun _ => hlast, hregular, h.notices,
    hworkers⟩

/-- Every step of the owner keeps a state sound. -/
theorem Sound.of_moves (h : s.Sound size calls) (hm : s.Moves s') : s'.Sound size calls := by
  cases hm with
  | @count n task rest w place next worker =>
    have htracks := h.tracks worker .free (by rw [place]; rfl)
    exact h.enter_call place next worker rfl rfl (if_pos rfl) (tracks_counted htracks)
  | @send n task w v place worker sent =>
    have htracks := h.tracks worker .counted (by rw [place]; exact if_pos rfl)
    rw [htracks.keeps.send?_eq, Option.some.injEq] at sent
    subst sent
    have hquiet : (Call.run n task).isQuiet = true :=
      h.isQuiet_of_call (by rw [place]; rfl)
    exact h.leave_call (c := .run n task) (by rw [place]; rfl) worker (tracks_sent htracks hquiet)
  | @begin n rest w place next worker =>
    have htracks := h.tracks worker .free (by rw [place]; rfl)
    rw [← put_self worker]
    exact h.enter_call place next worker rfl rfl (if_pos rfl) (tracks_waiting htracks.keeps)
  | @leave n w place worker none =>
    have htracks := h.tracks worker (.waiting 0) (by rw [place]; exact if_pos rfl)
    rw [← put_self worker]
    exact h.leave_call (c := .wait n) (by rw [place]; rfl) worker (tracks_waited htracks.keeps none)
  | @enter n w place worker some =>
    have htracks := h.tracks worker (.waiting 0) (by rw [place]; exact if_pos rfl)
    rw [← put_self worker]
    exact h.within_call (c := .wait n) (by rw [place]; rfl) worker rfl rfl (if_pos rfl)
      (tracks_blocked htracks.keeps some)
  | @receive n w v place worker received =>
    have htracks := h.tracks worker .blocked (by rw [place]; exact if_pos rfl)
    exact h.within_call (c := .wait n) (by rw [place]; rfl) worker rfl rfl (if_pos rfl)
      (tracks_waiting (htracks.keeps.receive received))
  | @collect n w place worker =>
    have htracks := h.tracks worker (.waiting 1) (by rw [place]; exact if_pos rfl)
    exact h.within_call (c := .wait n) (by rw [place]; rfl) worker rfl rfl (if_pos rfl)
      (tracks_waiting htracks.keeps.count_down)
  | close place next =>
    refine h.at_end (by rw [place]; rfl) next rfl rfl rfl fun m u hu => ?_
    have hstance : (Position.dismissing 0).stance m = .free := by simp [Position.stance]
    rw [hstance]
    exact h.tracks hu .free (by rw [place]; rfl)
  | @dismiss n w place worker =>
    have htracks := h.tracks worker .free (by rw [place]; exact if_neg (Nat.lt_irrefl n))
    refine h.at_end (by rw [place]; rfl) (h.closing (by rw [place]; rfl)) (Pool.size_setWorker ..)
      rfl rfl ?_
    refine h.tracks_put worker (if_pos (Nat.lt_succ_self n)) (tracks_dismissed htracks)
      fun m hne => ⟨?_, rfl, rfl⟩
    rw [place]
    exact ite_congr (propext (by omega)) (fun _ => rfl) fun _ => rfl
  | @turn n place last =>
    refine h.at_end (by rw [place]; rfl) (h.closing (by rw [place]; rfl)) rfl rfl rfl
      fun m u hu => ?_
    -- Every worker has been dismissed, as no number is left.
    have hstance : (Position.joining 0).stance m = .dismissed := by simp [Position.stance]
    rw [hstance]
    exact h.tracks hu .dismissed (by rw [place]; exact if_pos (lt_of_last last hu))
  | @join n w place worker gone =>
    have htracks := h.tracks worker .dismissed (by rw [place]; exact if_neg (Nat.lt_irrefl n))
    rw [← put_self worker]
    refine h.at_end (by rw [place]; rfl) (h.closing (by rw [place]; rfl)) (Pool.size_setWorker ..)
      rfl rfl ?_
    refine h.tracks_put worker (if_pos (Nat.lt_succ_self n))
      ⟨htracks.keeps, htracks.count, nofun, fun _ => gone⟩ fun m hne => ⟨?_, rfl, rfl⟩
    rw [place]
    exact ite_congr (propext (by omega)) (fun _ => rfl) fun _ => rfl
  | @finish n place last =>
    refine h.at_end (by rw [place]; rfl) (h.closing (by rw [place]; rfl)) rfl rfl rfl
      fun m u hu => ?_
    -- Every worker has been joined, as no number is left.
    exact h.tracks hu .joined (by rw [place]; exact if_pos (lt_of_last last hu))

/-- A worker that takes a step is known as before. -/
theorem tracks_step {returns : List Return} {stance : Stance} (h : w.Tracks n returns stance)
    (hs : w.step? = some v) : v.Tracks n returns stance := by
  have hpending := Worker.pending_of_step hs
  refine ⟨h.keeps.step hs, fun hfree => hpending.trans (h.count hfree),
    fun hblocked => hpending ▸ h.blocked hblocked, fun hjoined => ?_⟩
  rw [Worker.step?_of_exited (h.joined hjoined)] at hs
  cases hs

/-- A step of a worker of the pool changes that worker, and may report that a task broke off. -/
theorem workerStep?_eq_some_iff :
    s.workerStep? n = some s' ↔ ∃ w v, s.pool.workers[n]? = some w ∧ w.step? = some v ∧
      s' = (s.put n v).report (w.report (Pool.workerName n)) := by
  unfold workerStep?
  cases hw : s.pool.workers[n]? with
  | none => simp
  | some w =>
    cases hv : w.step? with
    | none => simp [hv]
    | some v => simp [hv, eq_comm]

/-- A worker reports nothing but that a task broke off. -/
theorem eq_of_mem_report {name : String} {notice : Notice} (h : notice ∈ w.report name) :
    notice = .taskPanicked name := by
  unfold Worker.report at h
  split at h
  · split at h
    · exact List.mem_singleton.mp h
    · cases h
  · cases h

/-- Every step of a worker keeps a state sound. -/
theorem Sound.workerStep (h : s.Sound size calls) (hs : s.workerStep? n = some s') :
    s'.Sound size calls := by
  obtain ⟨w, v, hw, hv, rfl⟩ := workerStep?_eq_some_iff.mp hs
  refine ⟨(Pool.size_setWorker ..).trans h.sized, h.program, h.quiet, h.closing, h.regular,
    fun notice hnotice => ?_, ?_⟩
  · rcases List.mem_append.mp hnotice with hnew | hold
    · exact .inr ⟨n, eq_of_mem_report hnew⟩
    · exact h.notices notice hold
  · exact h.tracks_put hw rfl (tracks_step (h.workers n w hw) hv) fun _ _ => ⟨rfl, rfl, rfl⟩

/-- Every step keeps a state sound. -/
theorem Sound.step (h : s.Sound size calls) (hvalid : ∀ c ∈ calls, c.worker < size) {turn : Turn}
    (hs : s.step? turn = some s') : s'.Sound size calls := by
  cases turn with
  | worker number => exact h.workerStep hs
  | owner => exact h.of_moves (h.moves hvalid hs)

/-- A new pool before the first call. -/
theorem sound_start (size : Nat) (hquiet : ∀ c ∈ calls, c.isQuiet = true) :
    (start size calls).Sound (max 1 size) calls := by
  refine ⟨Array.size_replicate, ⟨[], rfl, rfl⟩, hquiet, nofun, rfl, fun notice hnotice => ?_, ?_⟩
  · exact .inl (List.mem_singleton.mp hnotice)
  · intro number w hw
    obtain ⟨hlt, hw⟩ := Array.getElem?_eq_some_iff.mp hw
    have hfresh : w = Worker.fresh := hw.symm.trans (Array.getElem_replicate ..)
    rw [hfresh]
    exact ⟨Worker.keeps_fresh, fun _ => rfl, nofun, nofun⟩

end OwnedPool

end Transposition
