import Transposition.Column
import Transposition.Replacement

/-!
# Notices

What the table and the programs around it report while they work. A notice has a level and a place
that it comes from, by which a reader selects, and a wording.
-/

namespace Transposition

/-- The weight of a notice, from the most to the least severe. -/
inductive Level
  | error
  | warn
  | info
  | debug
  | trace
  deriving DecidableEq, Repr

namespace Level

/-- The levels in order of severity. -/
def all : List Level := [error, warn, info, debug, trace]

/-- The name of a level. -/
def name : Level → String
  | error => "ERROR"
  | warn => "WARN"
  | info => "INFO"
  | debug => "DEBUG"
  | trace => "TRACE"

/-- The place of a level in the order of severity; the most severe is 1. -/
def rank : Level → Nat
  | error => 1
  | warn => 2
  | info => 3
  | debug => 4
  | trace => 5

end Level

/-- A report of something that happened. -/
inductive Notice
  /-- A pool of so many workers was started. -/
  | poolStarted (workers : Nat)
  /-- A task of a worker broke off. -/
  | taskPanicked (worker : String)
  /-- A task was not accepted because its worker is gone. -/
  | workerGone (worker : String)
  /-- A worker that was waited for is gone, and its tasks are given up. -/
  | workerLost (worker : String)
  /-- So many stripes of a clear were left to the calling thread. -/
  | stripesTakenOver (taken of : Nat)
  /-- A table was cleared by so many workers. -/
  | cleared (buckets stripes : Nat)
  /-- A table was given a block. -/
  | resized (requested : UInt64) (buckets reserved : Nat) (largePages : Bool)
  /-- A stress run has its table. -/
  | ready (megabytes : UInt64) (buckets : Nat) (largePages : Bool) (params : Replacement)
  /-- So many hits of a stress round held what no write of the run stores. -/
  | outOfRangeHits (round hits : Nat)
  /-- A stress run has cleared its table. -/
  | emptied (perMille : Nat)
  deriving DecidableEq, Repr

namespace Notice

/-- The level of a notice. -/
def level : Notice → Level
  | poolStarted _ => .debug
  | taskPanicked _ => .error
  | workerGone _ => .error
  | workerLost _ => .error
  | stripesTakenOver _ _ => .warn
  | cleared _ _ => .debug
  | resized _ _ _ _ => .info
  | ready _ _ _ _ => .info
  | outOfRangeHits _ _ => .warn
  | emptied _ => .info

/-- The place that a notice comes from. -/
def origin : Notice → String
  | poolStarted _ => "ttable::pool"
  | taskPanicked _ => "ttable::pool"
  | workerGone _ => "ttable::pool"
  | workerLost _ => "ttable::pool"
  | stripesTakenOver _ _ => "ttable::tt::table"
  | cleared _ _ => "ttable::tt::table"
  | resized _ _ _ _ => "ttable::tt::table"
  | ready _ _ _ _ => "tt_stress"
  | outOfRangeHits _ _ => "tt_stress"
  | emptied _ => "tt_stress"

/-- The wording of a notice. -/
def text : Notice → String
  | poolStarted workers => s!"TT worker pool started: threads={workers}"
  | taskPanicked worker => s!"task panicked on {worker}"
  | workerGone worker => s!"{worker} is gone; task dropped"
  | workerLost worker => s!"{worker} exited with tasks outstanding"
  | stripesTakenOver taken of =>
    s!"TT clear: {taken} of {of} stripes zeroed on the calling thread"
  | cleared buckets stripes => s!"TT cleared: buckets={buckets} stripes={stripes}"
  | resized requested buckets reserved largePages =>
    s!"TT resize: requested={requested}B buckets={buckets} size={reserved}B " ++
      s!"large_pages={largePages}"
  | ready megabytes buckets largePages params =>
    s!"TT ready: {megabytes}MB buckets={buckets} large_pages={largePages} " ++
      "params=ReplacementParams \x7b depth_slack: " ++ toString params.depthSlack.toInt ++
      ", decay_threshold: " ++ toString params.decayThreshold.toInt ++
      ", age_weight: " ++ toString params.ageWeight.toInt ++ " \x7d"
  | outOfRangeHits round hits => s!"round {round}: {hits} hits decoded out of range"
  | emptied perMille => s!"TT cleared, hashfull={perMille}"

/-- A notice on one line, its origin left out. -/
def brief (n : Notice) : String := n.level.name ++ " " ++ n.text

/-- A notice on one line, its level padded to five letters. -/
def line (n : Notice) : String :=
  "[" ++ Column.left 5 n.level.name ++ " " ++ n.origin ++ "] " ++ n.text

end Notice

end Transposition
