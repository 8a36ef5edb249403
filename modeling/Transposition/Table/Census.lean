import Transposition.Table.Basic

/-!
# Counting and listing what a table holds
-/

namespace Transposition

/-- What a table holds, in numbers. -/
structure Census where
  /-- The occupied entries of all buckets. -/
  occupied : Nat
  /-- The set bits of all flag words. -/
  flagsSet : Nat
  /-- The number of the first bucket with an occupied entry. -/
  first : Option Nat
  /-- The number of the last bucket with an occupied entry. -/
  last : Option Nat
  deriving DecidableEq, Repr

/-- Whether an entry has ever been written: a zero value or evaluation says nothing of that. -/
def Entry.written (e : Entry) : Bool :=
  e.key != 0 || e.depthByte != 0 || e.stamp.byte != 0 || e.move != Move.none

/-- Whether a bucket holds a set flag or a written entry. -/
def Bucket.written (b : Bucket) : Bool :=
  b.flags != Flags.none || slots.any fun i => (b.entry i).written

namespace Table

/-- Counts what the table holds. -/
def census (t : Table) : Census :=
  let count : Census × Nat → Bucket → Census × Nat
    | (c, i), b =>
      let n := b.occupied
      let c : Census :=
        { occupied := c.occupied + n
          flagsSet := if b.flags == Flags.none then c.flagsSet else c.flagsSet + b.flags.count
          first := if n = 0 then c.first else some (c.first.getD i)
          last := if n = 0 then c.last else some i }
      (c, i + 1)
  (t.buckets.foldl count (⟨0, 0, none, none⟩, 0)).1

/-- The written buckets with their numbers, in ascending order. -/
def writtenBuckets (t : Table) : List (Nat × Bucket) :=
  let collect : List (Nat × Bucket) × Nat → Bucket → List (Nat × Bucket) × Nat
    | (found, i), b => (if b.written then (i, b) :: found else found, i + 1)
  (t.buckets.foldl collect ([], 0)).1.reverse

end Table

end Transposition
