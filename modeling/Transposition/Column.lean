/-!
# Columns

Texts filled up with blanks to a width. A text that is wider already is left as it is.
-/

namespace Transposition.Column

/-- That many blanks. -/
def blanks (n : Nat) : String := String.ofList (List.replicate n ' ')

/-- The text at the left edge of a column. -/
def left (width : Nat) (text : String) : String := text ++ blanks (width - text.length)

/-- The text at the right edge of a column. -/
def right (width : Nat) (text : String) : String := blanks (width - text.length) ++ text

/-- A text in a column is as wide as the column, or as the text if that is wider. -/
theorem length_right (width : Nat) (text : String) :
    (right width text).length = max width text.length := by
  simp only [right, blanks, String.length_append, String.length_ofList, List.length_replicate]
  omega

end Transposition.Column
