/-!
# Crews

The workers that share out a clear. Each worker is handed one task; a crew of threads runs them all,
and a planned crew says of each worker when it runs its task, or that it does not. Nothing else
about the workers can be told from what a clear leaves behind.
-/

namespace Transposition

/-- What a worker does with a task. -/
inductive Handling
  /-- Runs it while it is being handed over. -/
  | run
  /-- Accepts it, and runs it when it is waited for. -/
  | defer
  /-- Accepts it and never runs it. -/
  | drop
  /-- Does not accept it. -/
  | reject
  deriving DecidableEq, Repr

/-- When a task ran. -/
inductive Moment
  /-- While it was being handed over. -/
  | run
  /-- While its worker was waited for. -/
  | wait
  deriving DecidableEq, Repr

/-- The workers of a clear. -/
inductive Crew
  /-- So many threads, but at least one, which run every task. -/
  | threads (count : Nat)
  /-- One worker for each item, which treats its task as the item says. -/
  | plan (handling : List Handling)
  deriving DecidableEq, Repr

namespace Crew

/-- The number of workers. -/
def size : Crew → Nat
  | threads count => max 1 count
  | plan handling => handling.length

/-- The workers that treat their tasks in a given way, in ascending order. -/
def treating (h : Handling) (handling : List Handling) : List Nat :=
  handling.zipIdx.filterMap fun (own, worker) => if own = h then some worker else none

/-- The workers whose tasks run, in the order in which they run, each with the moment. -/
def runs : Crew → List (Moment × Nat)
  | threads count => (List.range (max 1 count)).map (.wait, ·)
  | plan handling =>
    (treating .run handling).map (.run, ·) ++ (treating .defer handling).map (.wait, ·)

/-- The crew of a step for which none is named. -/
def single : Crew := threads 1

end Crew

end Transposition
