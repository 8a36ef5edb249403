import Transposition.Bucket
import Transposition.Replacement

/-!
# Memory for a table

How many buckets a size in bytes makes, and what is asked of the allocator for them: a block aligned
to large pages, padded to a multiple of one. The allocator's answer to a size is a parameter
(`Memory`), so everything here is arithmetic.
-/

namespace Transposition

/-- The bytes of a megabyte. -/
def megabyte : Nat := 1024 * 1024

/-- The bytes of a large page, to which blocks are aligned. -/
def largePage : Nat := 2 * megabyte

/-- The number of values of a 64-bit word. -/
def wordCount : Nat := UInt64.size

/-- The allocator, by its answer to a request for that many bytes. -/
structure Memory where
  /-- Whether a block of that many bytes can be had. -/
  grants : Nat → Bool

/-- An allocator that grants every block smaller than a limit. -/
def Memory.below (limit : Nat) : Memory := ⟨fun bytes => decide (bytes < limit)⟩

/-- Why a table could not be set up. -/
inductive SetupError
  /-- That many bytes cannot be described to an allocator. -/
  | layout (bytes : Nat)
  /-- The allocator refused that many bytes. -/
  | outOfMemory (bytes : Nat)
  /-- A replacement parameter is out of range. -/
  | parameter (error : RangeError)
  deriving DecidableEq, Repr

/-- The wording of a setup error. -/
def SetupError.message : SetupError → String
  | .layout bytes => s!"invalid allocation layout for {bytes} bytes"
  | .outOfMemory bytes => s!"failed to allocate {bytes} bytes for the transposition table"
  | .parameter error => error.message

/-- The bytes of so many megabytes, or the largest word if they do not fit one. -/
def bytesOfMegabytes (megabytes : UInt64) : UInt64 :=
  UInt64.ofNat (min (megabytes.toNat * megabyte) (wordCount - 1))

/-- The number of whole buckets in a size, at least one. -/
def bucketsFor (bytes : UInt64) : Nat := max 1 (bytes.toNat / bucketBytes)

/-- The least multiple of a unit that is not below a number. -/
def roundUp (n unit : Nat) : Nat := (n + unit - 1) / unit * unit

/-- The largest size that an allocator can be asked for with the alignment of a large page. -/
def maxBlock : Nat := wordCount / 2 - largePage

/-- The largest size in bytes of a list. -/
def maxList : Nat := wordCount / 2 - 1

/-- Asks for a block for so many buckets, and gives the bytes that it reserves. -/
def Memory.reserve (memory : Memory) (count : Nat) : Except SetupError Nat :=
  let bytes := count * bucketBytes
  if wordCount ≤ bytes then .error (.layout (wordCount - 1))
  else if bytes = 0 ∨ maxBlock < bytes then .error (.layout bytes)
  else
    let reserved := roundUp bytes largePage
    if memory.grants reserved then .ok reserved else .error (.outOfMemory reserved)

/-- The megabytes of a word are the product, capped at the largest word. -/
theorem toNat_bytesOfMegabytes (megabytes : UInt64) :
    (bytesOfMegabytes megabytes).toNat = min (megabytes.toNat * megabyte) (wordCount - 1) := by
  unfold bytesOfMegabytes wordCount UInt64.size
  rw [UInt64.toNat_ofNat']
  omega

/-- A size makes at least one bucket. -/
theorem bucketsFor_pos (bytes : UInt64) : 0 < bucketsFor bytes := by
  unfold bucketsFor
  omega

end Transposition
