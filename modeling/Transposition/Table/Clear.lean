import Transposition.Crew
import Transposition.Notice
import Transposition.Stripe
import Transposition.Table.Basic

/-!
# Clearing a table

A clear shares the buckets out among the workers of a crew, one stripe to each. Each worker marks that
its task has run, and the caller afterwards zeroes the stripes without a mark, counts them and reports
their number. So the table is empty whatever the crew does, unless there are more workers than marks
can be laid out for, or the number of stripes passes the largest number of the counter. Either is a
fault.
-/

namespace Transposition

/-- The buckets of an array after one stripe of it has been zeroed. -/
def zeroStripe (s : Stripe) (buckets : Array Bucket) : Array Bucket :=
  fillRange Bucket.empty s.start s.length buckets

/-- The maximal ranges of empty buckets in an array, each as its first position and the position
after its last. -/
def emptyRanges (buckets : Array Bucket) : List (Nat × Nat) :=
  let scan : List (Nat × Nat) × Option Nat × Nat → Bucket → List (Nat × Nat) × Option Nat × Nat
    | (ranges, opened, i), b =>
      if b == Bucket.empty then (ranges, some (opened.getD i), i + 1)
      else
        match opened with
        | some start => ((start, i) :: ranges, none, i + 1)
        | none => (ranges, none, i + 1)
  let (ranges, opened, stop) := buckets.foldl scan ([], none, 0)
  match opened with
  | some start => ((start, stop) :: ranges).reverse
  | none => ranges.reverse

/-- The stripes of an array that the workers of a list do not zero, out of a number of workers. -/
def leftOver (workers : Nat) (done : List Nat) : List Nat :=
  (List.range workers).filter fun i => !done.contains i

/-- What an observer sees right after a task of a clear has run. -/
structure Sighting (α : Type) where
  /-- When the task ran. -/
  moment : Moment
  /-- Whose task it was. -/
  worker : Nat
  /-- What was seen. -/
  seen : α
  deriving Repr

/-- Zeroes the stripes of the workers in a list, in its order, and looks at the buckets after
each. -/
def runTasks {α : Type} (observe : Array Bucket → α) (size workers : Nat) :
    List (Moment × Nat) → Array Bucket → Array Bucket × List (Sighting α)
  | [], buckets => (buckets, [])
  | (moment, worker) :: rest, buckets =>
    let buckets := zeroStripe (Stripe.ofWorker size workers worker) buckets
    let seen := observe buckets
    let (buckets, sightings) := runTasks observe size workers rest buckets
    (buckets, ⟨moment, worker, seen⟩ :: sightings)

/-- The numbers of the counter of stripes, which has 32 bits and a sign, stop below this one. -/
def counterLimit : Nat := UInt32.size / 2

/-- The largest number of workers for which an array of marks can be described to an allocator: one byte
for each, behind two counts of 8 bytes, in less than half of the memory that words address. -/
def marksLimit : Nat := wordCount / 2 - 24

/-- Zeroes the stripes of the workers in a list, in its order, and counts them on from a number: the
buckets afterwards, and the count. The stripe at which the counter runs over is still zeroed. -/
def takeOver (size workers : Nat) :
    List Nat → Nat → Array Bucket → Array Bucket × Except Fault Nat
  | [], taken, buckets => (buckets, .ok taken)
  | worker :: rest, taken, buckets =>
    let buckets := zeroStripe (Stripe.ofWorker size workers worker) buckets
    if taken + 1 < counterLimit then takeOver size workers rest (taken + 1) buckets
    else (buckets, .error .addOverflow)

/-- A cleared table, what was seen on the way, what was reported, and the fault that stopped the clear
where the table shows it. -/
structure Cleared (α : Type) where
  /-- The table afterwards. -/
  table : Table
  /-- One sighting for each task that ran. -/
  sightings : List (Sighting α)
  /-- What the caller reported. -/
  notices : List Notice
  /-- What stopped the clear, if anything did. -/
  fault : Option Fault

namespace Table

/-- Zeroes every bucket and the generation, with the tasks of a given number of workers run in a
given order. Without workers the caller does it all, and reports nothing. -/
def clearBy {α : Type} (observe : Array Bucket → α) (workers : Nat) (runs : List (Moment × Nat))
    (t : Table) : Cleared α :=
  let count := t.bucketCount
  let t := { t with generation := 0 }
  if workers = 0 then
    ⟨{ t with buckets := zeroStripe ⟨0, count⟩ t.buckets }, [], [], none⟩
  else if marksLimit < workers then ⟨t, [], [], some .badLayout⟩
  else
    let (buckets, sightings) := runTasks observe count workers runs t.buckets
    match takeOver count workers (leftOver workers (runs.map (·.2))) 0 buckets with
    | (buckets, .error fault) => ⟨{ t with buckets }, sightings, [], some fault⟩
    | (buckets, .ok taken) =>
      let reported := if taken = 0 then [] else [.stripesTakenOver taken workers]
      ⟨{ t with buckets }, sightings, reported ++ [.cleared count workers], none⟩

/-- Clears the table with a crew and an observer. -/
def clearObserved {α : Type} (observe : Array Bucket → α) (crew : Crew) (t : Table) : Cleared α :=
  t.clearBy observe crew.size crew.runs

/-- Clears the table with a crew. -/
def clear (crew : Crew) (t : Table) : Cleared Unit := t.clearObserved (fun _ => ()) crew

end Table

end Transposition
