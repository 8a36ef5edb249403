import Transposition.Bucket

/-!
# Sessions with one bucket

A session is a sequence of commands to one bucket. Slots are given by number here, so that a number
without a slot is part of what a session can ask; the answer is then the fault.
-/

namespace Transposition

/-- A request to a bucket. The slot is a number, which need not be that of a slot. -/
inductive BucketCommand
  /-- Write a record under a key of 16 bits, with replacement parameters that need not be valid. -/
  | save (slot : Nat) (params : Replacement) (key : UInt16) (generation : UInt8) (record : Record)
  /-- Read the record. -/
  | read (slot : Nat)
  /-- Ask how old the entry is in each of several generations. -/
  | age (slot : Nat) (generations : List UInt8)
  /-- Set or clear an auxiliary flag. -/
  | setFlag (slot : Nat) (flag : Bool)
  /-- Ask for an auxiliary flag. -/
  | getFlag (slot : Nat)
  /-- Ask for the whole bucket. -/
  | dump
  deriving DecidableEq, Repr

/-- The answer to a request to a bucket. -/
inductive BucketAnswer
  /-- The entry after a write, and the flag word. -/
  | saved (entry : Entry) (flags : Flags)
  /-- The record of a slot, whether its entry is occupied, and its depth. -/
  | record (slot : Nat) (record : Record) (occupied : Bool) (depth : Depth)
  /-- The ages asked for. -/
  | ages (ages : List Nat)
  /-- The flag word after a flag was set. -/
  | flags (flags : Flags)
  /-- The flag asked for. -/
  | flag (flag : Bool)
  /-- The whole bucket. -/
  | bucket (bucket : Bucket)
  /-- The fault that stopped the request, and the whole bucket after it. -/
  | stopped (fault : Fault) (bucket : Bucket)
  deriving DecidableEq, Repr

namespace Bucket

/-- Answers one request. -/
def answer (checks : Checks) (b : Bucket) : BucketCommand → Bucket × BucketAnswer
  | .save slot params key generation record =>
    match slot? checks slot with
    | .error fault => (b, .stopped fault b)
    | .ok slot =>
      let a := b.trySave checks params key generation record slot
      match a.fault with
      | some fault => (a.bucket, .stopped fault a.bucket)
      | none => (a.bucket, .saved (a.bucket.entry slot) a.bucket.flags)
  | .read slot =>
    match slot? checks slot with
    | .error fault => (b, .stopped fault b)
    | .ok i => (b, .record slot (b.read i) (b.entry i).occupied (b.entry i).depth)
  | .age slot generations =>
    -- The slot is looked up for each generation, so it is not looked up if there is none.
    let age (g : UInt8) : Except Fault Nat := (slot? checks slot).map fun i => (b.entry i).age g
    match generations.mapM age with
    | .error fault => (b, .stopped fault b)
    | .ok ages => (b, .ages ages)
  | .setFlag slot flag =>
    match flagIndex? checks .left slot with
    | .error fault => (b, .stopped fault b)
    | .ok i =>
      let b := { b with flags := b.flags.set i flag }
      (b, .flags b.flags)
  | .getFlag slot =>
    match flagIndex? checks .right slot with
    | .error fault => (b, .stopped fault b)
    | .ok i => (b, .flag (b.flags.get i))
  | .dump => (b, .bucket b)

/-- Answers a sequence of requests. -/
def answerAll (checks : Checks) (b : Bucket) : List BucketCommand → Bucket × List BucketAnswer
  | [] => (b, [])
  | command :: rest =>
    let (b, first) := b.answer checks command
    let (b, others) := b.answerAll checks rest
    (b, first :: others)

end Bucket

end Transposition
