import Transposition.Table.Clear

/-!
# Setting up and resizing a table

A table is created from a size in bytes or megabytes, and can be given another size later. A resize
lets the old block go before it asks for the new one; if it fails, the table is left with one empty
bucket and without a block, ready for another try. Where failure is final, it becomes an `Abort`.
-/

namespace Transposition

/-- The end of a program that cannot go on without its table. -/
structure Abort where
  /-- The exit status. -/
  status : Nat
  /-- What is written to the error stream. -/
  report : String
  deriving DecidableEq, Repr

/-- The abort after a failed setup of so many megabytes. -/
def SetupError.abort (megabytes : Nat) (e : SetupError) : Abort :=
  ⟨1, s!"Failed to set up {megabytes}MB transposition table: " ++ e.message ++ "\n"⟩

/-- What a create comes to once it has its block. It succeeds if nothing stops the clear of the new
table; a table whose clear is stopped is let go. -/
structure Created where
  /-- The new table, as far as it was cleared. -/
  table : Table
  /-- What was reported. -/
  notices : List Notice
  /-- What stopped the clear, if anything did. -/
  fault : Option Fault

/-- What a resize leaves behind. It succeeds if the table got its block and nothing stopped the clear. -/
structure Resized where
  /-- The table afterwards, which is usable in any case. -/
  table : Table
  /-- Whether it got its block. -/
  outcome : Except SetupError Unit
  /-- What was reported. -/
  notices : List Notice
  /-- What stopped the clear, if anything did. -/
  fault : Option Fault

/-- What a resize of so many megabytes leaves, or the end of the program. -/
def Resized.orAbort (megabytes : Nat) (r : Resized) : Except Abort Created :=
  match r.outcome with
  | .ok () => .ok ⟨r.table, r.notices, r.fault⟩
  | .error e => .error (e.abort megabytes)

namespace Table

/-- The report of a table that was given its block. -/
def resizeNotice (bytes : UInt64) (t : Table) : Notice :=
  .resized bytes t.bucketCount t.reservedBytes t.largePages

/-- Clears a table that has just been given its block, and reports it. A clear that is stopped is not
reported. -/
def settle (crew : Crew) (bytes : UInt64) (fresh : Table) : Created :=
  let c := fresh.clear crew
  match c.fault with
  | some fault => ⟨c.table, c.notices, some fault⟩
  | none => ⟨c.table, c.notices ++ [c.table.resizeNotice bytes], none⟩

/-- Creates a table of a size in bytes. The parameters are checked before the block is asked for. -/
def create (memory : Memory) (crew : Crew) (params : Replacement) (bytes : UInt64) :
    Except SetupError Created := do
  (params.validate).mapError SetupError.parameter
  let count := bucketsFor bytes
  let reserved ← memory.reserve count
  let fresh : Table :=
    { storage := .block reserved
      buckets := Array.replicate count Bucket.empty
      bucketCount := count
      generation := 0
      params := params }
  return fresh.settle crew bytes

/-- Creates a table of a size in megabytes. -/
def createMegabytes (memory : Memory) (crew : Crew) (params : Replacement) (megabytes : UInt64) :
    Except SetupError Created :=
  create memory crew params (bytesOfMegabytes megabytes)

/-- The table that has let its block go: one empty bucket and a new count of generations. -/
def released (t : Table) : Table :=
  { t with
    storage := .single
    buckets := #[Bucket.empty]
    bucketCount := 1
    generation := 0 }

/-- Gives the table a size in bytes. -/
def resize (memory : Memory) (crew : Crew) (bytes : UInt64) (t : Table) : Resized :=
  let t := t.released
  let count := bucketsFor bytes
  match memory.reserve count with
  | .error e => ⟨t, .error e, [], none⟩
  | .ok reserved =>
    let fresh : Table :=
      { t with
        storage := .block reserved
        buckets := Array.replicate count Bucket.empty
        bucketCount := count }
    let made := fresh.settle crew bytes
    ⟨made.table, .ok (), made.notices, made.fault⟩

/-- Gives the table a size in megabytes. -/
def resizeMegabytes (memory : Memory) (crew : Crew) (megabytes : UInt64) (t : Table) : Resized :=
  t.resize memory crew (bytesOfMegabytes megabytes)

/-! ## Where failure is final -/

/-- Creates a table of a size in megabytes, or ends the program. -/
def createOrAbort (memory : Memory) (crew : Crew) (params : Replacement) (megabytes : UInt64) :
    Except Abort Created :=
  (createMegabytes memory crew params megabytes).mapError (SetupError.abort megabytes.toNat)

/-- Gives the table a size in bytes, or ends the program. -/
def resizeOrAbort (memory : Memory) (crew : Crew) (bytes : UInt64) (t : Table) :
    Except Abort Created :=
  (t.resize memory crew bytes).orAbort (bytes.toNat / megabyte)

/-- Gives the table a size in megabytes, or ends the program. -/
def resizeMegabytesOrAbort (memory : Memory) (crew : Crew) (megabytes : UInt64) (t : Table) :
    Except Abort Created :=
  (t.resizeMegabytes memory crew megabytes).orAbort megabytes.toNat

end Table

end Transposition
