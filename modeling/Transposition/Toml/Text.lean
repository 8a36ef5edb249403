import Transposition.Decimal.Digits
import Transposition.Toml.Blank

/-!
# Quoted texts

Texts in double quotes know escapes, texts in single quotes do not. Between three quotes a text may
run over several lines; one or two quotes may then stand in it, also right before its end.
-/

namespace Transposition.Toml

/-- The character whose number the next hexadecimal digits give, and how many characters that
takes with the letter before them. -/
def scalar? (digits : Nat) (cs : List Char) : Option (Char × Nat) :=
  let ds := cs.take digits
  if ds.length < digits then none
  else
    match ds.mapM Decimal.hexDigit? with
    | none => none
    | some values =>
      let code := Decimal.valueFrom 16 0 values
      if code.isValidChar then some (Char.ofNat code, digits + 1) else none

/-- The character that an escape after a backslash stands for, and how many characters it takes. -/
def escape? : List Char → Option (Char × Nat)
  | 'b' :: _ => some ('\x08', 1)
  | 't' :: _ => some ('\t', 1)
  | 'n' :: _ => some ('\n', 1)
  | 'f' :: _ => some ('\x0c', 1)
  | 'r' :: _ => some ('\r', 1)
  | '"' :: _ => some ('"', 1)
  | '\\' :: _ => some ('\\', 1)
  | 'u' :: rest => scalar? 4 rest
  | 'U' :: rest => scalar? 8 rest
  | _ => none

/-- What is left after the line end that a backslash hides: the blanks before it, and all blanks and
line ends after it. -/
def continuation? (cs : List Char) : Option (List Char) :=
  (newline? (skipBlanks cs)).map skip
where
  /-- The text after blanks and line ends. -/
  skip : List Char → List Char
    | [] => []
    | '\r' :: '\n' :: rest => skip rest
    | c :: rest => if c = '\n' ∨ isBlank c then skip rest else c :: rest

/-- The text after blanks and line ends is no longer than before. -/
theorem length_skip_le (cs : List Char) : (continuation?.skip cs).length ≤ cs.length := by
  fun_induction continuation?.skip cs <;> simp_all <;> omega

/-- What is left after a line end is shorter. -/
theorem length_newline?_lt {cs rest : List Char} (h : newline? cs = some rest) :
    rest.length < cs.length := by
  unfold newline? at h
  split at h
  · cases h
    simp only [List.length_cons]
    omega
  · cases h
    simp only [List.length_cons]
    omega
  · cases h

/-- What is left after a hidden line end is shorter. -/
theorem length_continuation?_lt {cs rest : List Char} (h : continuation? cs = some rest) :
    rest.length < cs.length := by
  obtain ⟨mid, hm, rfl⟩ := Option.map_eq_some_iff.1 h
  have h1 := length_newline?_lt hm
  have h2 := length_skip_le mid
  have h3 := (List.dropWhile_sublist (p := isBlank) (l := cs)).length_le
  unfold skipBlanks at h1
  omega

/-- Reads a text in double quotes up to its closing quote; the characters read so far are kept in
reverse. -/
def basicText (read : List Char) : List Char → Option (List Char × List Char)
  | [] => none
  | '"' :: rest => some (read.reverse, rest)
  | '\\' :: rest =>
    match escape? rest with
    | some (c, length) => basicText (c :: read) (rest.drop length)
    | none => none
  | c :: rest => if isCommentChar c then basicText (c :: read) rest else none
termination_by cs => cs.length
decreasing_by all_goals simp; try omega

/-- Reads a text in single quotes up to its closing quote. -/
def literalText (cs : List Char) : Option (List Char × List Char) :=
  let inside (c : Char) : Bool := isCommentChar c && c != '\''
  (expect? '\'' (cs.dropWhile inside)).map fun rest => (cs.takeWhile inside, rest)

/-- The quotes at the front of a text, up to five. -/
def leadingQuotes (quote : Char) (cs : List Char) : Nat :=
  ((cs.take 5).takeWhile (· == quote)).length

/-- Reads a text between three double quotes up to its closing quotes. Up to two quotes before the
closing ones belong to it. -/
def multilineBasicText (read : List Char) (cs : List Char) : Option (List Char × List Char) :=
  if 3 ≤ leadingQuotes '"' cs then
    let quotes := leadingQuotes '"' cs
    some (read.reverse ++ List.replicate (quotes - 3) '"', cs.drop quotes)
  else
    match cs with
    | [] => none
    | '\\' :: rest =>
      match _hc : continuation? rest with
      | some after => multilineBasicText read after
      | none =>
        match escape? rest with
        | some (c, length) => multilineBasicText (c :: read) (rest.drop length)
        | none => none
    | '\r' :: '\n' :: rest => multilineBasicText ('\n' :: read) rest
    | c :: rest =>
      if c = '\n' ∨ isCommentChar c then multilineBasicText (c :: read) rest else none
termination_by cs.length
decreasing_by
  · have := length_continuation?_lt _hc
    simp
    omega
  all_goals simp; try omega

/-- Reads a text between three single quotes up to its closing quotes. -/
def multilineLiteralText (read : List Char) (cs : List Char) : Option (List Char × List Char) :=
  if 3 ≤ leadingQuotes '\'' cs then
    let quotes := leadingQuotes '\'' cs
    some (read.reverse ++ List.replicate (quotes - 3) '\'', cs.drop quotes)
  else
    match cs with
    | [] => none
    | '\r' :: '\n' :: rest => multilineLiteralText ('\n' :: read) rest
    | c :: rest =>
      if c = '\n' ∨ isCommentChar c then multilineLiteralText (c :: read) rest else none
termination_by cs.length

/-- The text after the line end that may follow three opening quotes. -/
def skipFirstNewline (cs : List Char) : List Char := (newline? cs).getD cs

/-- Reads a quoted text on one line. -/
def quoted? : Reader String
  | '"' :: rest => (basicText [] rest).map fun (s, rest) => (String.ofList s, rest)
  | '\'' :: rest => (literalText rest).map fun (s, rest) => (String.ofList s, rest)
  | _ => none

/-- Reads a quoted text of either form. -/
def text? : Reader String
  | '"' :: '"' :: '"' :: rest =>
    (multilineBasicText [] (skipFirstNewline rest)).map fun (s, rest) => (String.ofList s, rest)
  | '\'' :: '\'' :: '\'' :: rest =>
    (multilineLiteralText [] (skipFirstNewline rest)).map fun (s, rest) => (String.ofList s, rest)
  | cs => quoted? cs

end Transposition.Toml
