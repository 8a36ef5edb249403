import Transposition.Table.Census
import Transposition.Table.Setup

/-!
# Sessions with a table

A session is a sequence of commands to one table. Writers that probes return can be kept under names
and used later, until a clear or a resize takes the buckets away from them.
-/

namespace Transposition

/-- A table in use, with the writers that are kept for later. -/
structure Session where
  /-- The table. -/
  table : Table
  /-- The kept writers by name, the newest first. -/
  writers : List (String × Writer)
  deriving Repr

/-- A request to a table. -/
inductive Command
  /-- Look a key up, and keep the writer under a name if one is given. -/
  | probe (key : UInt64) (keep : Option String)
  /-- Write a record under a key, with the current generation if none is given, through a kept writer
  or through that of a fresh probe. -/
  | write (key : UInt64) (record : Record) (generation : Option UInt8) (via : Option String)
  /-- Start that many searches. -/
  | newSearch (times : Nat)
  /-- Estimate the occupancy under each of several limits on the age. -/
  | hashfull (maxAges : List (Option UInt8))
  /-- Ask for a key's bucket to be near at hand. -/
  | prefetch (key : UInt64)
  /-- Ask for a key's bucket. -/
  | bucket (key : UInt64)
  /-- Write a record into every slot of the buckets from `first` up to `stop`, which is left out,
  under keys that count up with the slot. -/
  | fill (first : Nat) (stop : Option Nat) (key : UInt16) (record : Record)
      (generation : Option UInt8)
  /-- Count what the table holds. -/
  | census
  /-- List the written buckets. -/
  | dump
  /-- Ask for the table as a whole. -/
  | info
  /-- Clear the table. -/
  | clear (crew : Crew)
  /-- Give the table a size in bytes. -/
  | resize (bytes : UInt64) (crew : Crew)
  deriving Repr

/-- The answer to a request to a table. -/
inductive Answer
  /-- The answer to a probe. -/
  | probed (probe : Probe)
  /-- The slot that a write was aimed at, with its entry and flag word afterwards, and the fault that
  stopped the write. -/
  | written (writer : Writer) (entry : Entry) (flags : Flags) (fault : Option Fault)
  /-- No writer is kept under the name. -/
  | noWriter
  /-- The generation after new searches. -/
  | generation (generation : UInt8)
  /-- The estimates asked for. -/
  | perMille (estimates : List Nat)
  /-- Nothing to tell. -/
  | done
  /-- A bucket and its number. -/
  | bucket (number : Nat) (bucket : Bucket)
  /-- The number of buckets that were filled. -/
  | filled (buckets : Nat)
  /-- What the table holds. -/
  | census (census : Census)
  /-- The written buckets with their numbers. -/
  | buckets (buckets : List (Nat × Bucket))
  /-- The table as a whole. -/
  | info (info : TableInfo)
  /-- The generation after a clear, the ranges of empty buckets seen after each task, and the
  reports. -/
  | cleared (generation : UInt8) (sightings : List (Sighting (List (Nat × Nat))))
      (notices : List Notice)
  /-- Whether a resize succeeded, the table as a whole, and the reports. -/
  | resized (outcome : Except SetupError Unit) (info : TableInfo) (notices : List Notice)
  /-- The request was stopped by a fault. -/
  | stopped (fault : Fault)

namespace Table

/-- Writes a record into the slots of a list in a bucket, until a fault. Slot `i` is written under
the key plus `i`. -/
def fillSlots (checks : Checks) (number : Nat) (key : UInt16) (generation : UInt8) (r : Record) :
    List Slot → Table → Table × Option Fault
  | [], t => (t, none)
  | slot :: rest, t =>
    match t.bucketAt number with
    | .error fault => (t, some fault)
    | .ok b =>
      let a := b.trySave checks t.params (key + UInt16.ofNat slot.val) generation r slot
      let t := { t with buckets := t.buckets.setIfInBounds number a.bucket }
      match a.fault with
      | some fault => (t, some fault)
      | none => fillSlots checks number key generation r rest t

/-- Writes a record into every slot of `count` buckets, until a fault. -/
def fill (checks : Checks) (key : UInt16) (generation : UInt8) (r : Record) (first : Nat) :
    Nat → Table → Table × Option Fault
  | 0, t => (t, none)
  | count + 1, t =>
    match t.fillSlots checks first key generation r slots with
    | (t, some fault) => (t, some fault)
    | (t, none) => fill checks key generation r (first + 1) count t

end Table

namespace Session

/-- A session with a table and no kept writer. -/
def ofTable (t : Table) : Session := ⟨t, []⟩

/-- The writer that is kept under a name. -/
def writer? (s : Session) (name : String) : Option Writer := s.writers.lookup name

/-- Writes through a writer and tells what the slot holds afterwards. -/
def writeVia (checks : Checks) (w : Writer) (key : UInt64) (generation : Option UInt8) (r : Record)
    (s : Session) : Session × Answer :=
  let ⟨table, writers⟩ := s
  let (table, fault) := table.write checks w key (generation.getD table.generation) r
  match table.bucketAt w.bucket with
  | .error fault => (⟨table, writers⟩, .stopped fault)
  | .ok b => (⟨table, writers⟩, .written w (b.entry w.slot) b.flags fault)

/-- Answers one request. -/
def answer (checks : Checks) (memory : Memory) (s : Session) : Command → Session × Answer
  | .probe key keep =>
    match s.table.probe key with
    | .error fault => (s, .stopped fault)
    | .ok p =>
      match keep with
      | some name => ({ s with writers := (name, p.writer) :: s.writers }, .probed p)
      | none => (s, .probed p)
  | .write key r generation (some name) =>
    match s.writer? name with
    | some w => s.writeVia checks w key generation r
    | none => (s, .noWriter)
  | .write key r generation none =>
    match s.table.probe key with
    | .error fault => (s, .stopped fault)
    | .ok p => s.writeVia checks p.writer key generation r
  | .newSearch times =>
    let s := { s with table := times.repeat Table.newSearch s.table }
    (s, .generation s.table.generation)
  | .hashfull maxAges =>
    match maxAges.mapM s.table.hashfull with
    | .error fault => (s, .stopped fault)
    | .ok estimates => (s, .perMille estimates)
  | .prefetch key =>
    match s.table.prefetch key with
    | .error fault => (s, .stopped fault)
    | .ok () => (s, .done)
  | .bucket key =>
    match s.table.bucketOf key with
    | .error fault => (s, .stopped fault)
    | .ok b => (s, .bucket (s.table.indexOf key) b)
  | .fill first stop key r generation =>
    let ⟨table, writers⟩ := s
    let stop := stop.getD table.bucketCount
    match Fault.ofPart? first stop table.bucketCount with
    | some fault => (⟨table, writers⟩, .stopped fault)
    | none =>
      match table.fill checks key (generation.getD table.generation) r first (stop - first) with
      | (table, some fault) => (⟨table, writers⟩, .stopped fault)
      | (table, none) => (⟨table, writers⟩, .filled (stop - first))
  | .census => (s, .census s.table.census)
  | .dump => (s, .buckets s.table.writtenBuckets)
  | .info => (s, .info s.table.info)
  | .clear crew =>
    let c := s.table.clearObserved emptyRanges crew
    match c.fault with
    | some fault => (ofTable c.table, .stopped fault)
    | none => (ofTable c.table, .cleared c.table.generation c.sightings c.notices)
  | .resize bytes crew =>
    let r := s.table.resize memory crew bytes
    match r.fault with
    | some fault => (ofTable r.table, .stopped fault)
    | none => (ofTable r.table, .resized r.outcome r.table.info r.notices)

/-- Answers a sequence of requests. -/
def answerAll (checks : Checks) (memory : Memory) (s : Session) :
    List Command → Session × List Answer
  | [] => (s, [])
  | command :: rest =>
    let (s, first) := s.answer checks memory command
    let (s, others) := s.answerAll checks memory rest
    (s, first :: others)

end Session

end Transposition
