import Transposition.Crew
import Transposition.Fault
import Transposition.Notice
import Transposition.Pool.Worker

/-!
# Pools of worker threads

A pool owns a number of named workers, at least one. Tasks are dispatched to a worker by number and
waited for by number; a number without a worker is a fault. Closing the pool lets every worker
finish what it was sent.
-/

namespace Transposition

/-- The workers of a pool. -/
structure Pool where
  /-- The workers by number. -/
  workers : Array Worker
  deriving Repr

/-- The machine that a program runs on. -/
structure Machine where
  /-- The number of threads that it runs side by side. -/
  processors : UInt64
  deriving Repr

namespace Pool

/-- Starts a pool of so many workers, at least one, and reports it. -/
def start (size : Nat) : Pool × Notice :=
  let size := max 1 size
  (⟨Array.replicate size Worker.fresh⟩, .poolStarted size)

/-- Starts a pool as large as the machine. -/
def startFor (machine : Machine) : Pool × Notice := start machine.processors.toNat

/-- The number of workers. -/
def size (p : Pool) : Nat := p.workers.size

/-- The name of a worker. -/
def workerName (worker : Nat) : String := s!"tt-worker-{worker}"

/-- What a worker does with the task of a clear: it runs it while it is waited for, unless it is gone, or
will be before it comes to it. -/
def handling (w : Worker) : Handling :=
  if w.activity = .exited then .reject
  else if w.drain.activity = .exited then .drop
  else .defer

/-- The pool as the crew of a clear. -/
def crew (p : Pool) : Crew :=
  let handlings := p.workers.toList.map handling
  if ∀ h ∈ handlings, h = .defer then .threads p.size else .plan handlings

/-- The workers of a pool that was just started all run their tasks. -/
theorem crew_start (size : Nat) : (start size).1.crew = .threads (max 1 size) := by
  have hdrain : Worker.fresh.drain = Worker.fresh := by
    unfold Worker.drain
    rfl
  have hfresh : handling Worker.fresh = .defer := by
    unfold handling
    rw [hdrain]
    rfl
  have hall : ∀ h ∈ (start size).1.workers.toList.map handling, h = .defer := by
    intro h hh
    obtain ⟨w, hw, rfl⟩ := List.mem_map.mp hh
    have hworkers : (start size).1.workers.toList = List.replicate (max 1 size) Worker.fresh :=
      Array.toList_replicate
    rw [hworkers] at hw
    rw [List.eq_of_mem_replicate hw, hfresh]
  unfold crew
  rw [if_pos hall]
  exact congrArg Crew.threads Array.size_replicate

/-- What a clear reports of the workers that are gone, and then of those that go before their task. -/
def losses (p : Pool) : List Notice :=
  let numbered := p.workers.toList.zipIdx
  let gone := numbered.filter fun (w, _) => handling w = .reject
  let lost := numbered.filter fun (w, _) => handling w = .drop
  gone.map (fun (_, number) => .workerGone (workerName number)) ++
    lost.map fun (_, number) => .workerLost (workerName number)

/-- The worker of a number. -/
def worker (p : Pool) (number : Nat) : Except Fault Worker :=
  match p.workers[number]? with
  | some w => .ok w
  | none => .error (.indexOutOfBounds p.workers.size number)

/-- Replaces the worker of a number. -/
def setWorker (p : Pool) (number : Nat) (w : Worker) : Pool :=
  ⟨p.workers.setIfInBounds number w⟩

/-- Dispatches a task to a worker, and tells whether it was accepted. -/
def runOn (p : Pool) (number : Nat) (task : Task) : Except Fault (Pool × Bool) :=
  (p.worker number).map fun w =>
    let (w, accepted) := w.dispatch task
    (p.setWorker number w, accepted)

/-- Waits until every task dispatched to a worker has ended, or the worker is gone. -/
def waitFor (p : Pool) (number : Nat) : Except Fault Pool :=
  (p.worker number).map fun w => p.setWorker number w.settle

/-- Waits for every worker. -/
def waitForAll (p : Pool) : Pool := ⟨p.workers.map Worker.settle⟩

/-- Closes the pool: every worker is dismissed and runs what it was sent before, unless it is lost. -/
def close (p : Pool) : Pool := ⟨p.workers.map fun w => w.dismiss.drain⟩

end Pool

end Transposition
