import Transposition.Pool.Basic
import Transposition.Session.Table

/-!
# Sessions with a pool

A session is a sequence of commands to one pool. What a worker has run is told when it is waited
for, once for each task.
-/

namespace Transposition

/-- A pool in use, with the number of tasks of each worker that have been told. -/
structure PoolSession where
  /-- The pool. -/
  pool : Pool
  /-- The number of tasks told, by worker. -/
  told : Array Nat
  deriving Repr

/-- A request to a pool. -/
inductive PoolCommand
  /-- Dispatch a task to a worker. -/
  | run (worker : Nat) (task : Task)
  /-- Wait for a worker. -/
  | wait (worker : Nat)
  /-- Create a table of a size in bytes, write a record into every slot, and clear it. -/
  | table (bytes : UInt64) (record : Record)
  deriving Repr

/-- The answer to a request to a pool. -/
inductive PoolAnswer
  /-- Whether the task was accepted. -/
  | accepted (accepted : Bool)
  /-- The tasks that the worker has run since it was last waited for, under its name, and what it
  reported. -/
  | waited (worker : String) (ran : List Task) (notices : List Notice)
  /-- The occupied entries before and after a clear, and what was reported. -/
  | table (before after : Nat) (notices : List Notice)
  /-- The table could not be created. -/
  | noTable (error : SetupError)
  /-- The request was stopped by a fault. -/
  | stopped (fault : Fault)

namespace PoolSession

/-- A session with a new pool, and its report. -/
def start (size : Nat) : PoolSession × Notice :=
  let (pool, notice) := Pool.start size
  (⟨pool, Array.replicate pool.size 0⟩, notice)

/-- The key of the first slot when a pool fills a table. -/
def fillKey : UInt16 := 0xA000

/-- Fills a table that a pool has created, and clears it with the pool. -/
def fillAndClear (checks : Checks) (pool : Pool) (r : Record) (created : List Notice) (t : Table) :
    PoolAnswer :=
  match t.fill checks fillKey 0 r 0 t.bucketCount with
  | (_, some fault) => .stopped fault
  | (t, none) =>
    let before := t.census.occupied
    let c := t.clear pool.crew
    match c.fault with
    | some fault => .stopped fault
    | none => .table before c.table.census.occupied (created ++ pool.losses ++ c.notices)

/-- Answers one request. -/
def answer (checks : Checks) (memory : Memory) (s : PoolSession) :
    PoolCommand → PoolSession × PoolAnswer
  | .run number task =>
    match s.pool.runOn number task with
    | .error fault => (s, .stopped fault)
    | .ok (pool, accepted) => ({ s with pool }, .accepted accepted)
  | .wait number =>
    match s.pool.waitFor number with
    | .error fault => (s, .stopped fault)
    | .ok pool =>
      let name := Pool.workerName number
      let ran := (pool.workers[number]?.map Worker.ran).getD []
      let fresh := ran.drop (s.told[number]?.getD 0)
      let notices := (fresh.filter Task.isReported).map fun _ => .taskPanicked name
      (⟨pool, s.told.setIfInBounds number ran.length⟩, .waited name fresh notices)
  | .table bytes r =>
    match Table.create memory s.pool.crew Replacement.default bytes with
    | .error e => (s, .noTable e)
    | .ok ⟨_, _, some fault⟩ => (s, .stopped fault)
    | .ok ⟨t, created, none⟩ =>
      let pool := s.pool.waitForAll
      ({ s with pool }, fillAndClear checks pool r (s.pool.losses ++ created) t)

/-- Answers a sequence of requests. -/
def answerAll (checks : Checks) (memory : Memory) (s : PoolSession) :
    List PoolCommand → PoolSession × List PoolAnswer
  | [] => (s, [])
  | command :: rest =>
    let (s, first) := s.answer checks memory command
    let (s, others) := s.answerAll checks memory rest
    (s, first :: others)

end PoolSession

end Transposition
