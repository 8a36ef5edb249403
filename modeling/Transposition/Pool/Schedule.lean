import Transposition.Pool.Basic

/-!
# A pool and its owner in single steps

The thread that owns a pool makes a sequence of calls: it dispatches tasks and waits for workers. At
the end it closes the pool. Its workers run beside it. Here the calls are taken apart into the single
steps between which a worker can come, so that `OwnedPool.step?` is one step of the owner or of one
worker, and every interleaving is a list of turns (`OwnedPool.play`). A turn of someone who is blocked
is no step.
-/

namespace Transposition

/-- A call that the owner of a pool makes. -/
inductive Call
  /-- Dispatch a task to a worker. -/
  | run (worker : Nat) (task : Task)
  /-- Wait for a worker. -/
  | wait (worker : Nat)
  deriving DecidableEq, Repr

/-- The worker that a call is for. -/
def Call.worker : Call → Nat
  | run worker _ => worker
  | wait worker => worker

/-- Whether a call is for no task that leaves what cannot be dropped. -/
def Call.isQuiet : Call → Bool
  | run _ task => task.isQuiet
  | wait _ => true

/-- A call that has returned. -/
inductive Return
  /-- A task was dispatched to a worker and accepted or not. -/
  | ran (worker : Nat) (task : Task) (accepted : Bool)
  /-- A worker was waited for. -/
  | waited (worker : Nat)
  deriving DecidableEq, Repr

/-- Where the owner of a pool is in its program. -/
inductive Position
  /-- Between two calls. -/
  | between
  /-- A task is counted and not yet sent. -/
  | sending (worker : Nat) (task : Task)
  /-- A task could not be sent and is still counted. -/
  | refusing (worker : Nat) (task : Task)
  /-- At the head of the loop that waits for a worker, where it looks at the count. -/
  | waiting (worker : Nat)
  /-- In the loop, where it takes the next signal or is blocked until there is one. -/
  | receiving (worker : Nat)
  /-- A signal has been received whose task is still counted. -/
  | collecting (worker : Nat)
  /-- A worker that is waited for has turned out to be gone. -/
  | losing (worker : Nat)
  /-- Closing the pool, with the workers before this one dismissed. -/
  | dismissing (worker : Nat)
  /-- Closing the pool, with the workers before this one joined. -/
  | joining (worker : Nat)
  /-- The pool is closed. -/
  | closed
  /-- A call for a worker that there is not has ended the program. -/
  | stopped (fault : Fault)
  deriving DecidableEq, Repr

/-- A pool with its owner somewhere in its program. -/
structure OwnedPool where
  /-- The pool. -/
  pool : Pool
  /-- Where the owner is. -/
  position : Position
  /-- The calls that it has not begun, the next one first. -/
  calls : List Call
  /-- The calls that have returned, the newest first. -/
  returns : List Return
  /-- What the owner and the workers have reported, the newest first. -/
  notices : List Notice
  deriving Repr

/-- Who comes next. -/
inductive Turn
  /-- A worker. -/
  | worker (number : Nat)
  /-- The owner. -/
  | owner
  deriving DecidableEq, Repr

/-- What a worker reports with its next step: that a task broke off, when it signals the end. -/
def Worker.report (name : String) (w : Worker) : List Notice :=
  match w.activity with
  | .ended task => if task.isReported then [.taskPanicked name] else []
  | _ => []

namespace OwnedPool

/-- A new pool of so many workers, at least one, before the first call of a program. -/
def start (size : Nat) (calls : List Call) : OwnedPool :=
  let (pool, notice) := Pool.start size
  ⟨pool, .between, calls, [], [notice]⟩

/-- The owner goes on. -/
def goto (s : OwnedPool) (position : Position) : OwnedPool := { s with position }

/-- A worker changes. -/
def put (s : OwnedPool) (number : Nat) (w : Worker) : OwnedPool :=
  { s with pool := s.pool.setWorker number w }

/-- The call that the owner is in returns. -/
def leave (s : OwnedPool) (r : Return) : OwnedPool :=
  { s with position := .between, returns := r :: s.returns }

/-- Something is reported. -/
def report (s : OwnedPool) (notices : List Notice) : OwnedPool :=
  { s with notices := notices ++ s.notices }

/-- A step of the owner at a worker. A number without a worker ends the program. -/
def atWorker (s : OwnedPool) (number : Nat) (step : Worker → Option OwnedPool) : Option OwnedPool :=
  match s.pool.worker number with
  | .error fault => some (s.goto (.stopped fault))
  | .ok w => step w

/-- The owner's next step, unless it is blocked or at its end. -/
def ownerStep? (s : OwnedPool) : Option OwnedPool :=
  match s.position with
  | .between =>
    match s.calls with
    | .run n task :: rest =>
      s.atWorker n fun w => some { (s.put n w.count).goto (.sending n task) with calls := rest }
    | .wait n :: rest => s.atWorker n fun _ => some { s.goto (.waiting n) with calls := rest }
    | [] => some (s.goto (.dismissing 0))
  | .sending n task =>
    s.atWorker n fun w =>
      match w.send? (.run task) with
      | some v => some ((s.put n v).leave (.ran n task true))
      | none => some (s.goto (.refusing n task))
  | .refusing n task =>
    s.atWorker n fun w =>
      some (((s.put n w.discount).report [.workerGone (Pool.workerName n)]).leave (.ran n task false))
  | .waiting n =>
    s.atWorker n fun w =>
      some (if w.pending = 0 then s.leave (.waited n) else s.goto (.receiving n))
  | .receiving n =>
    s.atWorker n fun w =>
      match w.receive? with
      | some v => some ((s.put n v).goto (.collecting n))
      | none => if w.activity.isSilent then some (s.goto (.losing n)) else none
  | .collecting n => s.atWorker n fun w => some ((s.put n w.discount).goto (.waiting n))
  | .losing n =>
    s.atWorker n fun w =>
      some (((s.put n w.forget).report [.workerLost (Pool.workerName n)]).goto (.waiting n))
  | .dismissing n =>
    match s.pool.workers[n]? with
    | some w => some ((s.put n w.dismiss).goto (.dismissing (n + 1)))
    | none => some (s.goto (.joining 0))
  | .joining n =>
    match s.pool.workers[n]? with
    | some w => if w.activity = .exited then some (s.goto (.joining (n + 1))) else none
    | none => some (s.goto .closed)
  | .closed => none
  | .stopped _ => none

/-- The next step of a worker, unless there is none. -/
def workerStep? (number : Nat) (s : OwnedPool) : Option OwnedPool :=
  match s.pool.workers[number]? with
  | none => none
  | some w => w.step?.map fun v => (s.put number v).report (w.report (Pool.workerName number))

/-- The step of a turn. -/
def step? : Turn → OwnedPool → Option OwnedPool
  | .worker number, s => s.workerStep? number
  | .owner, s => s.ownerStep?

/-- The steps of several turns. -/
def play : List Turn → OwnedPool → Option OwnedPool
  | [], s => some s
  | turn :: rest, s => (s.step? turn).bind (play rest)

end OwnedPool

end Transposition
