import Transposition.Toml.DateTime
import Transposition.Toml.Number
import Transposition.Toml.Table
import Transposition.Toml.Text

/-!
# Lines

A document is a list of lines: a header that opens a table, a header that adds a table to a list, or
a key with its value. Keys are paths of names. Values nest, in lists and written-out tables, to a
depth that is limited.
-/

namespace Transposition.Toml

/-- A line of a document that is not blank. -/
inductive Line
  /-- A table is opened under a path. -/
  | header (path : List String)
  /-- A table is added to the list under a path. -/
  | element (path : List String)
  /-- A value is assigned to a path below the open table. -/
  | assign (path : List String) (value : Node)
  deriving Repr

/-- The number of levels to which values may nest. -/
def maxNesting : Nat := 79

/-- The number of names that a path may have. -/
def maxPath : Nat := 79

/-! ## Keys -/

/-- Reads one name. -/
def name? : Reader String
  | '"' :: rest => quoted? ('"' :: rest)
  | '\'' :: rest => quoted? ('\'' :: rest)
  | cs =>
    let name := cs.takeWhile isBare
    if name.isEmpty then none else some (String.ofList name, cs.dropWhile isBare)

/-- Reads a path: names with dots between them and blanks around each. -/
def names? : Nat → Reader (List String)
  | 0, _ => none
  | fuel + 1, cs =>
    match name? (skipBlanks cs) with
    | none => none
    | some (name, rest) =>
      match skipBlanks rest with
      | '.' :: rest => (names? fuel rest).map fun (names, rest) => (name :: names, rest)
      | rest => some ([name], rest)

/-- Reads a path that is not too long. A longer one runs out of names to read. -/
def path? : Reader (List String) := names? maxPath

/-! ## Values -/

/-- Reads a value that is no list and no table. -/
def scalar (cs : List Char) : Option (Node × List Char) :=
  match cs with
  | [] => none
  | c :: _ =>
    if c = '"' ∨ c = '\'' then (text? cs).map fun (s, rest) => (.text s, rest)
    else if c = 't' then (word? "true" cs).map (.boolean true, ·)
    else if c = 'f' then (word? "false" cs).map (.boolean false, ·)
    else
      match dateTime? cs, float? cs with
      | some (spelling, rest), _ => some (.dateTime spelling, rest)
      | none, some (x, rest) => some (.float x, rest)
      | none, none => (integer? cs).map fun (n, rest) => (.integer n, rest)

/-- Reads the items of a list and its closing bracket. A comma may follow the last item. -/
def items? (value? : Reader Node) : Nat → Reader (List Node)
  | 0, _ => none
  | fuel + 1, cs =>
    match skipLayout? false cs with
    | none => none
    | some (']' :: rest) => some ([], rest)
    | some cs =>
      match value? cs with
      | none => none
      | some (v, rest) =>
        match skipLayout? false rest with
        | some (',' :: rest) => (items? value? fuel rest).map fun (vs, rest) => (v :: vs, rest)
        | some (']' :: rest) => some ([v], rest)
        | _ => none

/-- Reads a path, an equals sign and a value, with blanks around them. -/
def pair? (value? : Reader Node) (cs : List Char) :
    Option ((List String × Node) × List Char) := do
  let (path, cs) ← path? cs
  let cs ← expect? '=' cs
  let (v, cs) ← value? (skipBlanks cs)
  return ((path, v), skipBlanks cs)

/-- Reads the pairs of a written-out table and its closing brace. No comma follows the last. -/
def pairs? (value? : Reader Node) : Nat → Reader (List (List String × Node))
  | 0, _ => none
  | fuel + 1, cs =>
    match pair? value? cs with
    | some (p, ',' :: rest) => (pairs? value? fuel rest).map fun (ps, rest) => (p :: ps, rest)
    | some (p, '\x7d' :: rest) => some ([p], rest)
    | _ => none

/-- Reads a value whose lists and tables nest to at most that many levels. -/
def value? : Nat → Reader Node
  | levels + 1, '[' :: rest =>
    (items? (value? levels) (rest.length + 1) rest).map fun (vs, rest) => (.array vs, rest)
  | levels + 1, '\x7b' :: rest =>
    match skipBlanks rest with
    | '\x7d' :: rest => some (.table .inline [], rest)
    | _ =>
      match pairs? (value? levels) (rest.length + 1) rest with
      | none => none
      | some (ps, rest) => (Entries.ofPairs ps).map fun entries => (.table .inline entries, rest)
  | _, cs => scalar cs

/-! ## Lines -/

/-- Reads the path of a header and the rest of its line. -/
def headerPath? (close : List Char) (cs : List Char) : Option (List String × List Char) :=
  match path? cs with
  | none => none
  | some (path, rest) =>
    if close.isPrefixOf rest then
      (restOfLine? (rest.drop close.length)).map fun rest => (path, rest)
    else none

/-- Reads one line that is not blank. -/
def line? : Reader Line
  | '[' :: '[' :: rest => (headerPath? [']', ']'] rest).map fun (path, rest) => (.element path, rest)
  | '[' :: rest => (headerPath? [']'] rest).map fun (path, rest) => (.header path, rest)
  | cs =>
    match pair? (value? maxNesting) cs with
    | none => none
    | some ((path, v), rest) => (restOfLine? rest).map fun rest => (.assign path v, rest)

/-- Reads the lines of a text. -/
def lines? : Nat → List Char → Option (List Line)
  | 0, _ => none
  | fuel + 1, cs =>
    match skipBlanks cs with
    | [] => some []
    | '#' :: rest =>
      match endOfLine? (skipComment ('#' :: rest)) with
      | some rest => lines? fuel rest
      | none => none
    | cs =>
      match newline? cs with
      | some rest => lines? fuel rest
      | none =>
        match line? cs with
        | some (line, rest) => (lines? fuel rest).map (line :: ·)
        | none => none

/-- The mark that may stand at the beginning of a text. -/
def byteOrderMark : Char := '\ufeff'

/-- The lines of a document. -/
def linesOf? (document : String) : Option (List Line) :=
  let cs :=
    match document.toList with
    | c :: rest => if c = byteOrderMark then rest else c :: rest
    | [] => []
  lines? (cs.length + 1) cs

end Transposition.Toml
