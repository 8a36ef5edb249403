import Transposition.Column
import Transposition.Lines

/-!
# What is wrong with the text of a pattern

An issue has a cause and the part of the text that shows it. Its report shows the text with that
part marked, and below it the cause in words. If the text has several lines, they are numbered and
set off by rules.
-/

namespace Transposition.Pattern

/-- A place in a text, by line and column, both counted from one. -/
structure Place where
  line : Nat
  column : Nat
  deriving DecidableEq, Repr

/-- The first place of a text. -/
def Place.first : Place := ⟨1, 1⟩

/-- The place after a character. -/
def Place.after (p : Place) (c : Char) : Place :=
  if c = '\n' then ⟨p.line + 1, 1⟩ else ⟨p.line, p.column + 1⟩

/-- A part of a text, from one place up to another. -/
structure Span where
  start : Place
  stop : Place
  deriving DecidableEq, Repr

/-- Whether a part comes before another one on the same line, or is that one. -/
def Span.le (a b : Span) : Bool :=
  decide (a.start.column < b.start.column ∨
    (a.start.column = b.start.column ∧ a.stop.column ≤ b.stop.column))

/-- What can be wrong with the text of a pattern. -/
inductive Cause
  | classEscape
  | classRangeOrder
  | classRangeEnd
  | classUnclosed
  | decimalInvalid
  | hexEmpty
  | hexNoCharacter
  | hexDigit
  | escapeEnd
  | escapeUnknown
  | modeNegationDangling
  | modeTwice
  | modeNegationTwice
  | modeEnd
  | modeUnknown
  | nameTwice
  | nameEmpty
  | nameCharacter
  | nameEnd
  | groupUnclosed
  | groupUnopened
  | countOrder
  | countEmpty
  | countUnclosed
  | repetitionMissing
  | wordEdgeUnclosed
  | wordEdgeUnknown
  | wordEdgeEnd
  | propertyInvalid
  | backreference
  | lookAround
  | scriptsNotAllowed
  | bytesNotText
  | propertyUnknown
  | propertyValueUnknown
  | wordClassUnavailable
  | caseUnavailable
  deriving DecidableEq, Repr

/-- The wording of a cause. -/
def Cause.message : Cause → String
  | classEscape => "invalid escape sequence found in character class"
  | classRangeOrder => "invalid character class range, the start must be <= the end"
  | classRangeEnd => "invalid range boundary, must be a literal"
  | classUnclosed => "unclosed character class"
  | decimalInvalid => "decimal literal invalid"
  | hexEmpty => "hexadecimal literal empty"
  | hexNoCharacter => "hexadecimal literal is not a Unicode scalar value"
  | hexDigit => "invalid hexadecimal digit"
  | escapeEnd => "incomplete escape sequence, reached end of pattern prematurely"
  | escapeUnknown => "unrecognized escape sequence"
  | modeNegationDangling => "dangling flag negation operator"
  | modeTwice => "duplicate flag"
  | modeNegationTwice => "flag negation operator repeated"
  | modeEnd => "expected flag but got end of regex"
  | modeUnknown => "unrecognized flag"
  | nameTwice => "duplicate capture group name"
  | nameEmpty => "empty capture group name"
  | nameCharacter => "invalid capture group character"
  | nameEnd => "unclosed capture group name"
  | groupUnclosed => "unclosed group"
  | groupUnopened => "unopened group"
  | countOrder => "invalid repetition count range, the start must be <= the end"
  | countEmpty => "repetition quantifier expects a valid decimal"
  | countUnclosed => "unclosed counted repetition"
  | repetitionMissing => "repetition operator missing expression"
  | wordEdgeUnclosed =>
    "special word boundary assertion is either unclosed or contains an invalid character"
  | wordEdgeUnknown =>
    "unrecognized special word boundary assertion, valid choices are: " ++
      "start, end, start-half or end-half"
  | wordEdgeEnd =>
    "found either the beginning of a special word boundary or a bounded repetition on a \\b " ++
      "with an opening brace, but no closing brace"
  | propertyInvalid => "invalid Unicode character class"
  | backreference => "backreferences are not supported"
  | lookAround => "look-around, including look-ahead and look-behind, is not supported"
  | scriptsNotAllowed => "Unicode not allowed here"
  | bytesNotText => "pattern can match invalid UTF-8"
  | propertyUnknown => "Unicode property not found"
  | propertyValueUnknown => "Unicode property value not found"
  | wordClassUnavailable =>
    "Unicode-aware Perl class not found (make sure the unicode-perl feature is enabled)"
  | caseUnavailable =>
    "Unicode-aware case insensitivity matching is not available " ++
      "(make sure the unicode-case feature is enabled)"

/-- Something wrong with the text of a pattern. -/
structure Issue where
  /-- What is wrong. -/
  cause : Cause
  /-- The part of the text that shows it. -/
  span : Span
  /-- An earlier part that it clashes with. -/
  earlier : Option Span
  deriving DecidableEq, Repr

namespace Issue

/-- The parts of the text to be marked. -/
def spans (i : Issue) : List Span := i.span :: i.earlier.toList

/-- A line of marks below the parts of a line, the first of which may be marked from a column on. An
empty part has one mark. -/
def marks : Nat → List Span → String
  | _, [] => ""
  | column, span :: rest =>
    let width := max 1 (span.stop.column - span.start.column)
    Column.blanks (span.start.column - column) ++ String.ofList (List.replicate width '^') ++
      marks (max column span.start.column + width) rest

/-- A line of the text with a heading, and below it the marks of its parts. -/
def markedLine (i : Issue) (heading : String) (number : Nat) (line : String) : List String :=
  let onLine (s : Span) : Bool := s.start.line == number && s.stop.line == number
  match (i.spans.filter onLine).mergeSort Span.le with
  | [] => [heading ++ line]
  | spans => [heading ++ line, Column.blanks heading.length ++ marks 1 spans]

/-- The remark on a part that runs over several lines. -/
def remark (s : Span) : String :=
  s!"on line {s.start.line} (column {s.start.column}) " ++
    s!"through line {s.stop.line} (column {s.stop.column - 1})"

/-- The report on a text of one line. -/
def shortReport (i : Issue) (lines : List String) : List String :=
  lines.zipIdx.flatMap fun (line, index) => i.markedLine "    " (index + 1) line

/-- The report on a text of several lines. A line feed at the end of the text begins a line that is
not shown. -/
def longReport (i : Issue) (lines : List String) (endsLine : Bool) : List String :=
  let rule := String.ofList (List.replicate 79 '~')
  let count := lines.length + endsLine.toNat
  let width := (toString count).length
  let heading (number : Nat) : String :=
    if count ≤ 1 then "    " else Column.right width (toString number) ++ ": "
  let body := lines.zipIdx.flatMap fun (line, index) =>
    i.markedLine (heading (index + 1)) (index + 1) line
  let remarks := (i.spans.filter fun s => s.start.line != s.stop.line).map remark
  rule :: body ++ rule :: remarks

/-- The report on an issue of a text. -/
def report (text : String) (i : Issue) : String :=
  let lines := Lines.ofText text
  let shown :=
    if text.toList.contains '\n' then i.longReport lines (text.toList.getLast? == some '\n')
    else i.shortReport lines
  String.intercalate "\n" ("regex parse error:" :: shown ++ ["error: " ++ i.cause.message])

end Issue

end Transposition.Pattern
