/-!
# Depths and their biased byte

A search depth is stored in one byte, `depth - Depth.offset`, after it has been clamped into the
storable range. Byte zero is left to mark an unoccupied entry, so the storable depths are those of
bytes 1 to 255, which leaves room for the negative depths of a quiescence search.
-/

namespace Transposition

/-- A search depth in plies. -/
abbrev Depth := Int32

namespace Depth

/-- The depth of a quiescence search. -/
def quiescence : Depth := 0

/-- The depth of an entry that was written without a search. -/
def unsearched : Depth := -2

/-- The bias of the stored byte, which is also the depth that an unoccupied entry reads as. -/
def offset : Depth := -3

/-- The smallest depth that can be stored. -/
def minStorable : Depth := offset + 1

/-- The largest depth that can be stored. -/
def maxStorable : Depth := offset + 255

/-- Whether a depth can be stored without clamping. -/
def Storable (d : Depth) : Prop := minStorable.toInt ≤ d.toInt ∧ d.toInt ≤ maxStorable.toInt

instance (d : Depth) : Decidable (Storable d) := inferInstanceAs (Decidable (_ ∧ _))

/-- The storable depth nearest to a depth. -/
def clamp (d : Depth) : Int := max minStorable.toInt (min maxStorable.toInt d.toInt)

/-- The clamped depth with the bias taken off, a number from 1 to 255. -/
def biased (d : Depth) : Nat := (clamp d - offset.toInt).toNat

/-- The byte that is stored for a depth. -/
def toByte (d : Depth) : UInt8 := UInt8.ofNat (biased d)

/-- The depth that a stored byte stands for. -/
def ofByte (byte : UInt8) : Depth := Int32.ofInt (byte.toNat + offset.toInt)

@[simp]
theorem toInt_offset : offset.toInt = -3 := by decide

@[simp]
theorem toInt_minStorable : minStorable.toInt = -2 := by decide

@[simp]
theorem toInt_maxStorable : maxStorable.toInt = 252 := by decide

/-- A biased depth is a nonzero byte. -/
theorem biased_bounds (d : Depth) : 1 ≤ biased d ∧ biased d ≤ 255 := by
  simp only [biased, clamp, toInt_offset, toInt_minStorable, toInt_maxStorable]
  omega

/-- The stored byte is the biased depth. -/
@[simp]
theorem toNat_toByte (d : Depth) : (toByte d).toNat = biased d := by
  have := biased_bounds d
  simp only [toByte, UInt8.toNat_ofNat']
  omega

/-- The depth of a stored byte, as an integer. -/
@[simp]
theorem toInt_ofByte (byte : UInt8) : (ofByte byte).toInt = byte.toNat - 3 := by
  have := byte.toNat_lt
  rw [ofByte, toInt_offset, Int32.toInt_ofInt_of_le] <;> omega

end Depth

end Transposition
