/-!
# Sets of characters

Sets that a pattern names: ranges, and what set operations make of them. The classes of the first
128 characters are known by name.
-/

namespace Transposition

/-- A set of characters. -/
inductive CharSet
  /-- No character. -/
  | none
  /-- The characters from one to another, both included. -/
  | range (first last : Char)
  /-- The characters of either set. -/
  | union (a b : CharSet)
  /-- The characters of both sets. -/
  | inter (a b : CharSet)
  /-- The characters of the first set that are not in the second. -/
  | diff (a b : CharSet)
  /-- The characters of one set that are not in the other. -/
  | symmDiff (a b : CharSet)
  /-- The characters that are not in the set. -/
  | compl (a : CharSet)
  /-- The characters of the set, and each of its letters among the first 128 in the other case. -/
  | eitherCase (a : CharSet)
  deriving DecidableEq, Repr

namespace CharSet

/-- A letter among the first 128 characters in the other case; other characters stay. -/
def otherCase (c : Char) : Char := if c.isUpper then c.toLower else c.toUpper

/-- Whether a character is in a set. -/
def contains : CharSet → Char → Bool
  | none, _ => false
  | range first last, c => decide (first ≤ c ∧ c ≤ last)
  | union a b, c => a.contains c || b.contains c
  | inter a b, c => a.contains c && b.contains c
  | diff a b, c => a.contains c && !b.contains c
  | symmDiff a b, c => a.contains c != b.contains c
  | compl a, c => !a.contains c
  | eitherCase a, c => a.contains c || a.contains (otherCase c)

/-- The set of one character. -/
def single (c : Char) : CharSet := range c c

/-- The union of ranges. -/
def ranges (rs : List (Char × Char)) : CharSet :=
  rs.foldr (fun (first, last) set => union (range first last) set) none

/-- The characters that are not in a set, or the set itself. -/
def complIf (negated : Bool) (a : CharSet) : CharSet := if negated then compl a else a

/-- Whether no character with a number from 128 to 255 is in a set. -/
def isNarrow (a : CharSet) : Bool :=
  (List.range 128).all fun i => !a.contains (Char.ofNat (128 + i))

/-- The decimal digits. -/
def digit : CharSet := range '0' '9'

/-- The small and the capital letters. -/
def alpha : CharSet := ranges [('A', 'Z'), ('a', 'z')]

/-- The white space. -/
def space : CharSet := ranges [('\t', '\r'), (' ', ' ')]

/-- The characters of words: letters, digits and the underscore. -/
def word : CharSet := ranges [('0', '9'), ('A', 'Z'), ('_', '_'), ('a', 'z')]

/-- The classes of the first 128 characters by name. -/
def named : List (String × CharSet) :=
  [("alnum", union digit alpha), ("alpha", alpha), ("ascii", range '\x00' '\x7f'),
    ("blank", ranges [('\t', '\t'), (' ', ' ')]),
    ("cntrl", ranges [('\x00', '\x1f'), ('\x7f', '\x7f')]),
    ("digit", digit), ("graph", range '!' '~'), ("lower", range 'a' 'z'), ("print", range ' ' '~'),
    ("punct", ranges [('!', '/'), (':', '@'), ('[', '\x60'), ('\x7b', '~')]), ("space", space),
    ("upper", range 'A' 'Z'), ("word", word),
    ("xdigit", ranges [('0', '9'), ('A', 'F'), ('a', 'f')])]

end CharSet

end Transposition
