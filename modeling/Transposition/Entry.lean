import Transposition.Fault
import Transposition.Record
import Transposition.Replacement
import Transposition.Stamp

/-!
# Entries

An entry packs one record into ten bytes, under the low 16 bits of its position's key. The auxiliary
flag is kept outside, in the bucket. This module holds the decoding (`Entry.read`), the three ways in
which an entry answers a write (`Entry.verdict`), and what each does to the entry.

The arithmetic is done on naturals and integers; each quantity has a name, so that the range in
which it stays can be stated of it.
-/

namespace Transposition

/-- A stored record without its auxiliary flag. -/
structure Entry where
  /-- The low 16 bits of the position's key. -/
  key : UInt16
  /-- The biased depth; zero marks an unoccupied entry. -/
  depthByte : UInt8
  /-- The generation, node kind and bound of the last overwrite. -/
  stamp : Stamp
  /-- The move. -/
  move : Move
  /-- The value, reduced to 16 bits. -/
  value : Int16
  /-- The static evaluation, reduced to 16 bits. -/
  eval : Int16
  deriving DecidableEq, Repr

/-- What a write does to the entry that it is aimed at. -/
inductive Verdict
  /-- The entry takes the written record. -/
  | overwrite
  /-- The entry stays and loses one ply of depth. -/
  | decay
  /-- The entry stays as it is. -/
  | keep
  deriving DecidableEq, Repr

namespace Entry

/-- The entry of ten zero bytes. -/
def empty : Entry := ⟨0, 0, ⟨0⟩, Move.none, 0, 0⟩

instance : Inhabited Entry := ⟨empty⟩

/-- Whether the entry holds a record. -/
def occupied (e : Entry) : Bool := e.depthByte != 0

/-- The stored depth, without its bias. -/
def depth (e : Entry) : Depth := Depth.ofByte e.depthByte

/-- The stored bound. -/
def bound (e : Entry) : Bound := e.stamp.bound

/-- How many generations, in units of eight to a search, have passed since the entry was written. -/
def age (e : Entry) (generation : UInt8) : Nat := e.stamp.age generation

/-- The stored record, with the auxiliary flag given. -/
def read (e : Entry) (cut : Bool) : Record where
  move := e.move
  value := Score.ofInt16 e.value
  eval := Score.ofInt16 e.eval
  depth := e.depth
  bound := e.bound
  pv := e.stamp.isPv
  cut := cut

/-! ## The answer to a write -/

/-- What a record brings to the comparison of depths: its biased depth, and two for a
principal-variation node. -/
def claim (r : Record) : Nat := r.depth.biased + if r.pv then 2 else 0

/-- What a record has to exceed in order to overwrite by depth. -/
def bar (p : Replacement) (e : Entry) : Int := e.depthByte.toNat - p.depthSlack.toInt

/-- Whether a write overwrites the entry: an exact bound, another position, a search deep enough, or
an entry of an earlier generation. Whether the entry is occupied plays no part. -/
def Yields (p : Replacement) (key : UInt16) (generation : UInt8) (r : Record) (e : Entry) : Prop :=
  r.bound = .exact ∨ key ≠ e.key ∨ bar p e < claim r ∨ e.age generation ≠ 0

instance (p : Replacement) (key : UInt16) (generation : UInt8) (r : Record) (e : Entry) :
    Decidable (e.Yields p key generation r) :=
  inferInstanceAs (Decidable (_ ∨ _ ∨ _ ∨ _))

/-- Whether an entry that stays loses a ply: it is not exact, at least as deep as the threshold, and
stays occupied by it. -/
def Decays (p : Replacement) (e : Entry) : Prop :=
  1 < e.depthByte.toNat ∧ p.decayThreshold.toInt ≤ e.depthByte.toNat + Depth.offset.toInt ∧
    e.bound ≠ .exact

instance (p : Replacement) (e : Entry) : Decidable (e.Decays p) :=
  inferInstanceAs (Decidable (_ ∧ _ ∧ _))

/-- How an entry answers a write. -/
def verdict (p : Replacement) (key : UInt16) (generation : UInt8) (r : Record) (e : Entry) :
    Verdict :=
  if e.Yields p key generation r then .overwrite
  else if e.Decays p then .decay
  else .keep

/-! ## What a write changes -/

/-- The move is stored first, whatever the verdict; a write without a move keeps the move of the
same position. -/
def withMove (key : UInt16) (r : Record) (e : Entry) : Entry :=
  if r.move.isNone && key == e.key then e else { e with move := r.move }

/-- All fields but the move, taken from a record. -/
def overwrite (key : UInt16) (generation : UInt8) (r : Record) (e : Entry) : Entry where
  key := key
  depthByte := r.depth.toByte
  stamp := Stamp.make generation r.pv r.bound
  move := e.move
  value := r.value.toInt16
  eval := r.eval.toInt16

/-- One ply less. -/
def decay (e : Entry) : Entry := { e with depthByte := e.depthByte - 1 }

/-- The entry after an unchecked write. -/
def save (p : Replacement) (key : UInt16) (generation : UInt8) (r : Record) (e : Entry) : Entry :=
  match e.verdict p key generation r with
  | .overwrite => (e.withMove key r).overwrite key generation r
  | .decay => (e.withMove key r).decay
  | .keep => e.withMove key r

/-! ## Checks -/

/-- The condition on a write that is checked before anything is stored. -/
def argumentFault? (checks : Checks) (generation : UInt8) (r : Record) : Option Fault :=
  match checks with
  | .off => none
  | .on =>
    if lowBits generation ≠ 0 then some (.generationLowBits (lowBits generation))
    else if ¬r.depth.Storable then some (.depthNotStorable r.depth)
    else none

/-- The condition on the scores of a write, which is checked on the way to an overwrite, when the
move has been stored already. -/
def scoreFault? (checks : Checks) (r : Record) : Option Fault :=
  match checks with
  | .off => none
  | .on =>
    if ¬r.value.Fits then some (.valueDoesNotFit r.value)
    else if ¬r.eval.Fits then some (.evalDoesNotFit r.eval)
    else none

end Entry

end Transposition
