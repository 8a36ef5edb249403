import Transposition.Addressing
import Transposition.Bucket
import Transposition.Memory

/-!
# The transposition table

An array of buckets, addressed by the keys of positions, with a generation counter and replacement
parameters. A probe says whether a record is stored under a key and where a record for it would go
(`Probe.writer`); a write through such a writer may come at any later time. Nothing is stored by a
probe.

The number of buckets is kept beside the array, and addressing uses the number. An access that finds
no bucket is a fault, so that the agreement of the two is a theorem and not an assumption.
-/

namespace Transposition

/-- What the buckets of a table lie in. -/
inductive Storage
  /-- A block of so many bytes on large pages. -/
  | block (reserved : Nat)
  /-- The single bucket of a table that holds no block. -/
  | single
  deriving DecidableEq, Repr

/-- A transposition table. -/
structure Table where
  /-- What the buckets lie in. -/
  storage : Storage
  /-- The buckets. -/
  buckets : Array Bucket
  /-- The number of buckets that keys are spread over. -/
  bucketCount : Nat
  /-- The current generation. -/
  generation : UInt8
  /-- The tuning of the replacement rules. -/
  params : Replacement
  deriving Repr

/-- The place of an entry, through which it can be written. -/
structure Writer where
  /-- The number of the bucket. -/
  bucket : Nat
  /-- The slot in it. -/
  slot : Slot
  deriving DecidableEq, Repr

/-- The answer to a probe of a bucket. -/
structure Lookup where
  /-- Whether a record is stored under the key. -/
  found : Bool
  /-- The record, or `Record.absent`. -/
  record : Record
  /-- The slot under the key, or the one that gives way to it. -/
  slot : Slot
  deriving DecidableEq, Repr

/-- The answer to a probe of a table. -/
structure Probe where
  /-- Whether a record is stored under the key. -/
  found : Bool
  /-- The record, or `Record.absent`. -/
  record : Record
  /-- Where a record under the key goes. -/
  writer : Writer
  deriving DecidableEq, Repr

/-- What can be asked of a table as a whole. -/
structure TableInfo where
  /-- The number of buckets that keys are spread over. -/
  buckets : Nat
  /-- The bytes of that many buckets. -/
  bytes : Nat
  /-- Whether the buckets lie on large pages. -/
  largePages : Bool
  /-- The tuning of the replacement rules. -/
  params : Replacement
  /-- The current generation. -/
  generation : UInt8
  /-- The length of the array of buckets. -/
  length : Nat
  deriving DecidableEq, Repr

/-- The first slot under the key answers, and holds the record if it is occupied. Without such a slot
the entry worth least gives way. -/
def Bucket.lookup (p : Replacement) (generation : UInt8) (key : UInt16) (b : Bucket) : Lookup :=
  match b.find? key with
  | some slot =>
    if (b.entry slot).occupied then ⟨true, b.read slot, slot⟩ else ⟨false, Record.absent, slot⟩
  | none => ⟨false, Record.absent, b.victim p generation⟩

namespace Table

/-- The number of leading buckets that the occupancy estimate looks at. -/
def hashfullSample : Nat := 1000

/-- The bucket of a number. -/
def bucketAt (t : Table) (number : Nat) : Except Fault Bucket :=
  match t.buckets[number]? with
  | some b => .ok b
  | none => .error (.indexOutOfBounds t.buckets.size number)

/-- The number of a key's bucket. -/
def indexOf (t : Table) (key : UInt64) : Nat := bucketIndex key t.bucketCount

/-- A key's bucket. -/
def bucketOf (t : Table) (key : UInt64) : Except Fault Bucket := t.bucketAt (t.indexOf key)

/-- Looks a key up. -/
def probe (t : Table) (key : UInt64) : Except Fault Probe :=
  (t.bucketOf key).map fun b =>
    let l := b.lookup t.params t.generation (entryKey key)
    ⟨l.found, l.record, ⟨t.indexOf key, l.slot⟩⟩

/-- Asks for a key's bucket to be near at hand. Only the address is computed. -/
def prefetch (t : Table) (key : UInt64) : Except Fault Unit := (t.bucketOf key).map fun _ => ()

/-- Writes a record under a key through a writer. The fault, if any, stopped the write where the
table shows it. -/
def write (checks : Checks) (w : Writer) (key : UInt64) (generation : UInt8) (r : Record)
    (t : Table) : Table × Option Fault :=
  match t.bucketAt w.bucket with
  | .error fault => (t, some fault)
  | .ok b =>
    let a := b.trySave checks t.params (entryKey key) generation r w.slot
    ({ t with buckets := t.buckets.setIfInBounds w.bucket a.bucket }, a.fault)

/-- Starts a new search: the generation advances, and after 32 searches it comes round. -/
def newSearch (t : Table) : Table := { t with generation := t.generation + generationStep }

/-- The occupied entries among the first buckets that are at most so many searches old, per thousand
entries looked at. Without a limit on the age, only entries of the current search count. -/
def hashfull (maxAge : Option UInt8) (t : Table) : Except Fault Nat :=
  let limit := (maxAge.getD 0).toNat <<< generationBits
  let sample := min hashfullSample t.bucketCount
  let counts := (t.buckets.extract 0 sample).toList.map (Bucket.countRecent t.generation limit)
  if sample * entryCount = 0 then .error .divisionByZero
  else .ok (counts.foldl (· + ·) 0 * 1000 / (sample * entryCount))

/-- The bytes of the buckets in use. -/
def sizeBytes (t : Table) : Nat := t.bucketCount * bucketBytes

/-- Whether the buckets lie on large pages. -/
def largePages (t : Table) : Bool :=
  match t.storage with
  | .block _ => true
  | .single => false

/-- The bytes that are held for the buckets, with what pads them. -/
def reservedBytes (t : Table) : Nat :=
  match t.storage with
  | .block reserved => reserved
  | .single => t.buckets.size * bucketBytes

/-- What can be asked of the table as a whole. -/
def info (t : Table) : TableInfo where
  buckets := t.bucketCount
  bytes := t.sizeBytes
  largePages := t.largePages
  params := t.params
  generation := t.generation
  length := t.buckets.size

end Table

end Transposition
