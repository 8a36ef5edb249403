/-!
# Blanks, comments and line ends

What stands between the tokens of a document. A line ends with a line feed, which a carriage return
may precede; a carriage return alone is no line end. A comment runs to the end of its line and holds
no control character but the tab.
-/

namespace Transposition.Toml

/-- A reader takes a value off the front of a text, if it can, and gives the rest. -/
abbrev Reader (α : Type) := List Char → Option (α × List Char)

/-- Whether a character is a space or a tab. -/
def isBlank (c : Char) : Bool := c == ' ' || c == '\t'

/-- Whether a character may stand in a comment: the tab, and every character that is no control
character of the first 128. -/
def isCommentChar (c : Char) : Bool :=
  c == '\t' || decide (0x20 ≤ c.toNat ∧ c.toNat ≤ 0x7E) || decide (0x80 ≤ c.toNat)

/-- The text after its blanks. -/
def skipBlanks (cs : List Char) : List Char := cs.dropWhile isBlank

/-- The text after a line end. -/
def newline? : List Char → Option (List Char)
  | '\n' :: rest => some rest
  | '\r' :: '\n' :: rest => some rest
  | _ => none

/-- The text after a comment, if there is one. -/
def skipComment : List Char → List Char
  | '#' :: rest => rest.dropWhile isCommentChar
  | cs => cs

/-- The text after a line end or at its own end. -/
def endOfLine? : List Char → Option (List Char)
  | [] => some []
  | cs => newline? cs

/-- The text after the rest of a line, which holds nothing but blanks and a comment. -/
def restOfLine? (cs : List Char) : Option (List Char) := endOfLine? (skipComment (skipBlanks cs))

/-- The text after blanks, line ends and comments. Inside a comment, it goes on to the line end. -/
def skipLayout? (comment : Bool) : List Char → Option (List Char)
  | [] => if comment then none else some []
  | '\n' :: rest => skipLayout? false rest
  | '\r' :: '\n' :: rest => skipLayout? false rest
  | c :: rest =>
    if comment then if isCommentChar c then skipLayout? true rest else none
    else if isBlank c then skipLayout? false rest
    else if c = '#' then skipLayout? true rest
    else if c = '\r' then none
    else some (c :: rest)

/-- The text after a given character. -/
def expect? (c : Char) : List Char → Option (List Char)
  | [] => none
  | d :: rest => if c = d then some rest else none

end Transposition.Toml
