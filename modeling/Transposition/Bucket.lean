import Transposition.Entry
import Transposition.Flags

/-!
# Buckets

A bucket is the unit of addressing: three entries, whose records compete for its places, and one
word with an auxiliary flag for each. This module holds the operations on one slot, the search for a
key, and the choice of the entry that gives way when the key is not there.
-/

namespace Transposition

/-- The number of entries in a bucket. -/
abbrev entryCount : Nat := 3

/-- The position of an entry in its bucket. -/
abbrev Slot := Fin entryCount

/-- The slots of a bucket in ascending order. -/
def slots : List Slot := [0, 1, 2]

/-- The bytes that an entry takes. -/
def entryBytes : Nat := 10

/-- The bytes that a bucket takes: its entries and its flag word. -/
def bucketBytes : Nat := entryCount * entryBytes + 2

/-- Three entries and their auxiliary flags. -/
structure Bucket where
  /-- The entry in each slot. -/
  entries : Vector Entry entryCount
  /-- The auxiliary flag of each slot, and thirteen spare bits. -/
  flags : Flags
  deriving DecidableEq, Repr

/-- What an operation on a bucket leaves behind, and the fault that stopped it, if any. -/
structure Attempt where
  /-- The bucket afterwards. -/
  bucket : Bucket
  /-- Why the operation stopped before its end. -/
  fault : Option Fault
  deriving DecidableEq, Repr

namespace Bucket

/-- The bucket of zero bytes. -/
def empty : Bucket := ⟨Vector.replicate entryCount Entry.empty, Flags.none⟩

instance : Inhabited Bucket := ⟨empty⟩

/-- The entry in a slot. -/
def entry (b : Bucket) (slot : Slot) : Entry := b.entries[slot]

/-- Replaces the entry in a slot. -/
def setEntry (b : Bucket) (slot : Slot) (e : Entry) : Bucket :=
  { b with entries := b.entries.set slot e }

/-- Replaces the auxiliary flag of a slot. -/
def setFlag (b : Bucket) (slot : Slot) (flag : Bool) : Bucket :=
  { b with flags := b.flags.set slot flag }

/-- The number of occupied entries. -/
def occupied (b : Bucket) : Nat := slots.countP fun i => (b.entry i).occupied

/-- The record in a slot, its auxiliary flag included. -/
def read (b : Bucket) (slot : Slot) : Record := (b.entry slot).read (b.flags.get slot)

/-! ## Writing -/

/-- Writes a record into a slot without any check. -/
def save (p : Replacement) (key : UInt16) (generation : UInt8) (r : Record) (slot : Slot)
    (b : Bucket) : Bucket :=
  let written := b.setEntry slot ((b.entry slot).save p key generation r)
  match (b.entry slot).verdict p key generation r with
  | .overwrite => written.setFlag slot r.cut
  | _ => written

/-- Writes a record into a slot, with the checks asked for. A score is checked only on the way to an
overwrite, after the move has been stored and before anything else is. -/
def trySave (checks : Checks) (p : Replacement) (key : UInt16) (generation : UInt8) (r : Record)
    (slot : Slot) (b : Bucket) : Attempt :=
  match Entry.argumentFault? checks generation r with
  | some fault => ⟨b, some fault⟩
  | none =>
    match (b.entry slot).verdict p key generation r, Entry.scoreFault? checks r with
    | .overwrite, some fault => ⟨b.setEntry slot ((b.entry slot).withMove key r), some fault⟩
    | _, _ => ⟨b.save p key generation r slot, none⟩

/-! ## Slots by number -/

/-- The slot of a number, or the fault that a number beyond the last slot raises. -/
def slot? (checks : Checks) (index : Nat) : Except Fault Slot :=
  if h : index < entryCount then .ok ⟨index, h⟩
  else
    match checks with
    | .on => .error .slotOutOfRange
    | .off => .error (.indexOutOfBounds entryCount index)

/-- The number of a flag, or the fault that it raises. Without checks the spare bits of the word can
be used like flags. -/
def flagIndex? (checks : Checks) (direction : ShiftDirection) (index : Nat) : Except Fault Nat :=
  match checks with
  | .on => if index < entryCount then .ok index else .error .slotOutOfRange
  | .off => if index < Flags.width then .ok index else .error (.shiftOverflow direction)

/-! ## Searching -/

/-- The first slot under a key, occupied or not. -/
def find? (key : UInt16) (b : Bucket) : Option Slot := slots.find? fun i => (b.entry i).key == key

/-- The worth of an entry: its biased depth, less its weighted age. -/
def worth (p : Replacement) (generation : UInt8) (e : Entry) : Int :=
  e.depthByte.toNat - p.ageWeight.toInt * e.age generation

/-- The slot whose entry is worth least, the first of them if there are several. -/
def victim (p : Replacement) (generation : UInt8) (b : Bucket) : Slot :=
  slots.foldl
    (fun best i =>
      if worth p generation (b.entry i) < worth p generation (b.entry best) then i else best)
    0

/-- The number of occupied entries whose age is at most a limit. -/
def countRecent (generation : UInt8) (limit : Nat) (b : Bucket) : Nat :=
  slots.countP fun i => (b.entry i).occupied && decide ((b.entry i).age generation ≤ limit)

end Bucket

end Transposition
