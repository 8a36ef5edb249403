/-!
# A worker and its owner

A worker runs the tasks of a queue, one after the other, and sends a signal after each. A task may break
off; the worker catches that, drops what the task broke off with, and goes on. Only if dropping it breaks
off as well, the worker is lost: it signals no more, and what is in its queue is dropped.

The owner counts the tasks that it has dispatched and not yet heard of. Queue and signals are lossless
and keep their order. What a worker does (`Worker.step?`) and what its owner does (`Worker.count`,
`Worker.send?`, `Worker.receive?` and the like) are single steps, so that every interleaving of the two
is a sequence of them.

A dispatch and a wait are made of the owner's steps (`Worker.dispatch`, `Worker.settle`). The worker's
steps that a wait depends on are taken on the way.
-/

namespace Transposition

/-- What a task that breaks off leaves for its worker to drop. -/
inductive Payload
  /-- It can be dropped. -/
  | quiet
  /-- Dropping it breaks off as well. -/
  | loud
  deriving DecidableEq, Repr

/-- A task, as far as it can be told from outside. -/
structure Task where
  /-- What the task notes when it runs. -/
  tag : Nat
  /-- What it breaks off with after that, if it does. -/
  payload : Option Payload
  deriving DecidableEq, Repr

/-- Whether a task leaves nothing that cannot be dropped. -/
def Task.isQuiet (t : Task) : Bool := t.payload != some .loud

/-- Whether a task breaks off so that its worker comes to report it. -/
def Task.isReported (t : Task) : Bool := t.payload == some .quiet

/-- What an owner sends to its worker. -/
inductive Order
  /-- Run a task. -/
  | run (task : Task)
  /-- Take no further order. -/
  | shutdown
  deriving DecidableEq, Repr

/-- The task that an order asks for. -/
def Order.task? : Order → Option Task
  | run task => some task
  | shutdown => none

/-- What a worker is doing. -/
inductive Activity
  /-- Waiting for an order. -/
  | idle
  /-- Running a task. -/
  | running (task : Task)
  /-- Done with a task, of which it has not yet sent the signal. -/
  | ended (task : Task)
  /-- Lost, with its signals given up and its queue not yet. -/
  | leaving
  /-- Gone, after a shutdown or because it was lost. -/
  | exited
  deriving DecidableEq, Repr

/-- Whether no further signal can come. -/
def Activity.isSilent : Activity → Bool
  | leaving | exited => true
  | _ => false

/-- A worker with its queue, and the owner's count of its tasks. -/
structure Worker where
  /-- The orders that it has not taken yet, the oldest first. -/
  queue : List Order
  /-- What it is doing. -/
  activity : Activity
  /-- The signals that it has sent and the owner has not received. -/
  signals : Nat
  /-- The owner's count of tasks dispatched and not yet waited for. -/
  pending : Nat
  /-- The tasks that it has run, the oldest first. -/
  ran : List Task
  deriving DecidableEq, Repr

namespace Worker

/-- A worker that has just been started. -/
def fresh : Worker := ⟨[], .idle, 0, 0, []⟩

instance : Inhabited Worker := ⟨fresh⟩

/-! ## Single steps -/

/-- The owner counts a task. -/
def count (w : Worker) : Worker := { w with pending := w.pending + 1 }

/-- The owner takes a task off the count. -/
def discount (w : Worker) : Worker := { w with pending := w.pending - 1 }

/-- The owner gives up the count. -/
def forget (w : Worker) : Worker := { w with pending := 0 }

/-- The owner sends an order. A worker that is gone does not get it. -/
def send? (order : Order) (w : Worker) : Option Worker :=
  if w.activity = .exited then none else some { w with queue := w.queue ++ [order] }

/-- The owner sends the order to stop, which a worker that is gone does without. -/
def dismiss (w : Worker) : Worker := (w.send? .shutdown).getD w

/-- The owner receives a signal, if there is one. -/
def receive? (w : Worker) : Option Worker :=
  match w.signals with
  | 0 => none
  | signals + 1 => some { w with signals }

/-- The worker's next step: it takes an order, ends its task, or drops what is left of it and signals
that. A task that breaks off ends like any other, unless what it leaves cannot be dropped. -/
def step? (w : Worker) : Option Worker :=
  match w.activity, w.queue with
  | .idle, .run task :: rest => some { w with queue := rest, activity := .running task }
  | .idle, .shutdown :: rest => some { w with queue := rest, activity := .exited }
  | .idle, [] => none
  | .running task, _ => some { w with activity := .ended task, ran := w.ran ++ [task] }
  | .ended task, _ =>
    if task.isQuiet then some { w with activity := .idle, signals := w.signals + 1 }
    else some { w with activity := .leaving }
  | .leaving, _ => some { w with queue := [], activity := .exited }
  | .exited, _ => none

/-! ## Dispatching and waiting -/

/-- Counts a task and sends it. If the worker is gone, the count is taken back and the task is not
accepted. -/
def dispatch (task : Task) (w : Worker) : Worker × Bool :=
  match w.count.send? (.run task) with
  | some v => (v, true)
  | none => (w.count.discount, false)

/-- The steps that a worker and the receiver of its signals can still take: three of the worker for
each order, and three of the receiver for each signal. -/
def backlog (w : Worker) : Nat :=
  6 * w.queue.length + 3 * w.signals +
    match w.activity with
    | .running _ => 5
    | .ended _ => 4
    | .leaving => 1
    | _ => 0

/-- What a step of the worker can be. -/
theorem step?_cases {w v : Worker} (h : w.step? = some v) :
    (∃ task rest, w.activity = .idle ∧ w.queue = .run task :: rest ∧
      v = { w with queue := rest, activity := .running task }) ∨
    (∃ rest, w.activity = .idle ∧ w.queue = .shutdown :: rest ∧
      v = { w with queue := rest, activity := .exited }) ∨
    (∃ task, w.activity = .running task ∧
      v = { w with activity := .ended task, ran := w.ran ++ [task] }) ∨
    (∃ task, w.activity = .ended task ∧ task.isQuiet = true ∧
      v = { w with activity := .idle, signals := w.signals + 1 }) ∨
    (∃ task, w.activity = .ended task ∧ task.isQuiet = false ∧
      v = { w with activity := .leaving }) ∨
    w.activity = .leaving ∧ v = { w with queue := [], activity := .exited } := by
  unfold step? at h
  split at h
  · rename_i task rest hactivity hqueue
    exact .inl ⟨task, rest, hactivity, hqueue, (Option.some.inj h).symm⟩
  · rename_i rest hactivity hqueue
    exact .inr (.inl ⟨rest, hactivity, hqueue, (Option.some.inj h).symm⟩)
  · cases h
  · rename_i task hactivity
    exact .inr (.inr (.inl ⟨task, hactivity, (Option.some.inj h).symm⟩))
  · rename_i task hactivity
    cases hquiet : task.isQuiet with
    | true =>
      rw [hquiet, if_pos rfl] at h
      exact .inr (.inr (.inr (.inl ⟨task, hactivity, hquiet, (Option.some.inj h).symm⟩)))
    | false =>
      rw [hquiet, if_neg Bool.false_ne_true] at h
      exact .inr (.inr (.inr (.inr (.inl ⟨task, hactivity, hquiet, (Option.some.inj h).symm⟩))))
  · rename_i hactivity
    exact .inr (.inr (.inr (.inr (.inr ⟨hactivity, (Option.some.inj h).symm⟩))))
  · cases h

/-- A step of the worker takes one off the backlog, at least. -/
theorem backlog_step? {w v : Worker} (h : w.step? = some v) : v.backlog < w.backlog := by
  obtain ⟨task, rest, hactivity, hqueue, rfl⟩ | ⟨rest, hactivity, hqueue, rfl⟩ |
    ⟨task, hactivity, rfl⟩ | ⟨task, hactivity, -, rfl⟩ | ⟨task, hactivity, -, rfl⟩ |
    ⟨hactivity, rfl⟩ := step?_cases h
  · simp only [backlog, hactivity, hqueue, List.length_cons]
    omega
  · simp only [backlog, hactivity, hqueue, List.length_cons]
    omega
  · simp only [backlog, hactivity]
    omega
  · simp only [backlog, hactivity]
    omega
  · simp only [backlog, hactivity]
    omega
  · simp only [backlog, hactivity, List.length_nil]
    omega

/-- An order that is sent puts its three steps and those of the receiver on the backlog. -/
theorem backlog_send? {w v : Worker} {order : Order} (h : w.send? order = some v) :
    v.backlog = w.backlog + 6 := by
  unfold send? at h
  split at h
  · cases h
  · cases h
    simp only [backlog, List.length_append, List.length_singleton]
    omega

/-- Receiving a signal takes the receiver's three steps off the backlog. -/
theorem backlog_receive? {w v : Worker} (h : w.receive? = some v) : v.backlog + 3 = w.backlog := by
  unfold receive? at h
  split at h
  · cases h
  · rename_i signals hsignals
    cases h
    simp only [backlog, hsignals]
    omega

/-- Receives a signal for every counted task, and lets the worker run until it has sent them. If it is
gone before, the count is given up. -/
def settle (w : Worker) : Worker :=
  if w.pending = 0 then w
  else
    match _hr : w.receive? with
    | some v => v.discount.settle
    | none =>
      match _hs : w.step? with
      | some v => v.settle
      | none => if w.activity = .exited then w.forget else w
termination_by w.backlog
decreasing_by
  · have hreceive := backlog_receive? _hr
    show v.backlog < w.backlog
    omega
  · exact backlog_step? _hs

/-- Lets the worker run until it has no step left. -/
def drain (w : Worker) : Worker :=
  match _hs : w.step? with
  | some v => v.drain
  | none => w
termination_by w.backlog
decreasing_by exact backlog_step? _hs

end Worker

end Transposition
