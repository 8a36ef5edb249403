/-!
# White space

The characters that separate words in any script, and texts without them at their ends.
-/

namespace Transposition

/-- The ranges of the characters that are white space, in ascending order. -/
def spaceRanges : List (Nat × Nat) :=
  [(0x9, 0xD), (0x20, 0x20), (0x85, 0x85), (0xA0, 0xA0), (0x1680, 0x1680), (0x2000, 0x200A),
    (0x2028, 0x2029), (0x202F, 0x202F), (0x205F, 0x205F), (0x3000, 0x3000)]

/-- Whether a character is white space. -/
def isSpace (c : Char) : Bool :=
  spaceRanges.any fun (first, last) => decide (first ≤ c.toNat ∧ c.toNat ≤ last)

/-- Every character that is white space in the first 128 is white space here. -/
theorem isSpace_of_isWhitespace {c : Char} (h : c.isWhitespace) : isSpace c := by
  simp only [Char.isWhitespace, Bool.or_eq_true, decide_eq_true_eq] at h
  obtain ((rfl | rfl) | rfl) | rfl := h <;> decide

/-- A text without the white space at its ends. -/
def trimSpace (text : String) : String :=
  let inner := (text.toList.dropWhile isSpace).reverse.dropWhile isSpace
  String.ofList inner.reverse

end Transposition
