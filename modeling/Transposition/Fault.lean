import Transposition.Depth
import Transposition.Score

/-!
# Checks and faults

A table runs with its internal checks on or off. A fault is a check that failed, an access outside an
array, a counter that ran over, or an array too long to be described; it stops the operation where it
stands, so the state that the operation has reached so far is part of its result.
-/

namespace Transposition

/-- Whether the conditions that callers promise are checked. -/
inductive Checks
  | off
  | on
  deriving DecidableEq, Repr, Inhabited

/-- The direction of a shift. -/
inductive ShiftDirection
  | left
  | right
  deriving DecidableEq, Repr

/-- Why an operation stopped. -/
inductive Fault
  /-- An array of that size was accessed at an index beyond it. -/
  | indexOutOfBounds (size index : Nat)
  /-- A part of an array of that size was asked for that starts beyond its end. -/
  | startOutOfRange (start size : Nat)
  /-- A part of an array of that size was asked for that stops beyond its end. -/
  | stopOutOfRange (stop size : Nat)
  /-- A part of an array was asked for that stops before it starts. -/
  | stopBeforeStart (start stop : Nat)
  /-- A checked slot number was not below the number of entries. -/
  | slotOutOfRange
  /-- A word was shifted by its width or more. -/
  | shiftOverflow (direction : ShiftDirection)
  /-- A division by zero. -/
  | divisionByZero
  /-- A counter passed the largest number of its type. -/
  | addOverflow
  /-- An array is too long to be described to an allocator. -/
  | badLayout
  /-- A growing array would be too long for any allocator. -/
  | capacityOverflow
  /-- A checked generation had these low bits set. -/
  | generationLowBits (bits : UInt8)
  /-- A checked depth was outside the storable range. -/
  | depthNotStorable (depth : Depth)
  /-- A checked score does not fit 16 bits. -/
  | valueDoesNotFit (value : Score)
  /-- A checked static evaluation does not fit 16 bits. -/
  | evalDoesNotFit (eval : Score)
  deriving DecidableEq, Repr

/-- The fault of asking for the part of an array from `start` up to `stop`, which is left out. The
start is looked at first. -/
def Fault.ofPart? (start stop size : Nat) : Option Fault :=
  if size < start then some (.startOutOfRange start size)
  else if size < stop then some (.stopOutOfRange stop size)
  else if stop < start then some (.stopBeforeStart start stop)
  else none

/-- A part of an array can be asked for exactly if it starts no later than it stops, and that no
later than the array. -/
theorem Fault.ofPart?_eq_none_iff {start stop size : Nat} :
    Fault.ofPart? start stop size = none ↔ start ≤ stop ∧ stop ≤ size := by
  unfold Fault.ofPart?
  split
  · simp
    omega
  · split
    · simp
      omega
    · split
      · simp
        omega
      · simp
        omega

/-- The wording of a fault. -/
def Fault.message : Fault → String
  | .indexOutOfBounds size index =>
    s!"index out of bounds: the len is {size} but the index is {index}"
  | .startOutOfRange start size =>
    s!"range start index {start} out of range for slice of length {size}"
  | .stopOutOfRange stop size =>
    s!"range end index {stop} out of range for slice of length {size}"
  | .stopBeforeStart start stop => s!"slice index starts at {start} but ends at {stop}"
  | .slotOutOfRange => "assertion failed: index < ENTRY_COUNT"
  | .shiftOverflow .left => "attempt to shift left with overflow"
  | .shiftOverflow .right => "attempt to shift right with overflow"
  | .divisionByZero => "attempt to divide by zero"
  | .addOverflow => "attempt to add with overflow"
  | .badLayout => "called `Result::unwrap()` on an `Err` value: LayoutError"
  | .capacityOverflow => "capacity overflow"
  | .generationLowBits bits =>
    s!"assertion `left == right` failed: generation has low bits set\n  left: {bits}\n right: 0"
  | .depthNotStorable depth => "depth " ++ toString depth.toInt ++ " outside storable range"
  | .valueDoesNotFit value => "value " ++ value.text ++ " does not fit i16"
  | .evalDoesNotFit eval => "eval " ++ eval.text ++ " does not fit i16"

end Transposition
