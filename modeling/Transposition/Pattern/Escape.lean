import Transposition.Decimal.Digits
import Transposition.Pattern.Basic
import Transposition.Pattern.Scan

/-!
# Single parts of a pattern

Characters, escapes after a backslash, and what they mean in the modes that hold where they stand.
The letters, the words and the properties of characters of all scripts are not known here: a part
that asks for them can be read, but has no meaning.
-/

namespace Transposition.Pattern

/-- A part of a pattern that is written by one sign. -/
inductive Sign
  /-- A character; `asByte` tells that it is written as a byte. -/
  | character (c : Char) (asByte : Bool)
  /-- A class of characters, or all others. -/
  | family (set : CharSet) (negated : Bool)
  /-- A property of characters. -/
  | property (name : String) (hasValue : Bool)
  /-- Any character. -/
  | dot
  /-- A condition on the place. -/
  | anchor (a : Anchor)
  deriving DecidableEq, Repr

namespace Reader

/-- Characters that mean themselves after a backslash: those with a meaning of their own, and
those of the first 128 that are neither letters nor digits nor angle brackets. -/
def isEscapable (c : Char) : Bool :=
  decide (c.toNat < 128) && !c.isAlphanum && c != '<' && c != '>'

/-- Reads so many hexadecimal digits, and continues a number by them. -/
def hexDigits : Nat → Nat → Reader Nat
  | 0, value => return value
  | n + 1, value => do
    match ← peek with
    | none => refuse .escapeEnd (← nowhere)
    | some c =>
      match Decimal.hexDigit? c with
      | none => refuse .hexDigit (← nextSpan)
      | some d =>
        nextSpaced
        hexDigits n (16 * value + d)

/-- The character with a number. -/
def characterAt (value : Nat) (span : Span) : Reader Char :=
  if value.isValidChar then return Char.ofNat value else refuse .hexNoCharacter span

/-- Reads a number of hexadecimal digits in braces. -/
def bracedHex : Reader Char := do
  let brace ← here
  next
  let start ← here
  skipSpace
  let digits ← takeSpacedWhile fun c => (Decimal.hexDigit? c).isSome
  match ← peek with
  | none => refuse .escapeEnd (← since brace)
  | some '}' =>
    let span ← since start
    nextSpaced
    if digits.isEmpty then refuse .hexEmpty (← since brace)
    characterAt (Decimal.valueFrom 16 0 (digits.filterMap Decimal.hexDigit?)) span
  | some _ => refuse .hexDigit (← nextSpan)

/-- Reads a character by its hexadecimal number, after the letter that tells its length. -/
def hex (digits : Nat) : Reader Sign := do
  nextSpaced
  match ← peek with
  | none => refuse .escapeEnd (← nowhere)
  | some '{' => return .character (← bracedHex) false
  | some _ =>
    let start ← here
    let value ← hexDigits digits 0
    return .character (← characterAt value (← since start)) (digits == 2)

/-- Reads a property of characters, after the letter that begins it. -/
def property : Reader Sign := do
  nextSpaced
  match ← peek with
  | none => refuse .escapeEnd (← nowhere)
  | some '{' =>
    nextSpaced
    let name ← takeSpacedWhile (· ≠ '}')
    if (← peek).isNone then refuse .escapeEnd (← nowhere)
    next
    return .property (String.ofList name) (name.any fun c => c == ':' || c == '=')
  | some c =>
    if c = '\\' then refuse .propertyInvalid (← nextSpan)
    nextSpaced
    return .property (String.singleton c) false

/-- The conditions on words that are written by names. -/
def namedEdges : List (String × WordEdge) :=
  [("start", .start), ("end", .stop), ("start-half", .startHalf), ("end-half", .stopHalf)]

/-- Reads the name in braces of a condition on words whose sign begins at a place, if there is one.
Without it, a word begins or ends there. Other braces are those of a repetition. -/
def wordEdge (start : Place) : Reader WordEdge := do
  let before ← get
  if before.rest.head? ≠ some '{' then return .boundary
  nextSpaced
  let isNameChar (c : Char) : Bool := c.isAlpha || c == '-'
  match ← peek with
  | none => refuse .wordEdgeEnd (← since start)
  | some c =>
    if !isNameChar c then
      set before
      return .boundary
    let first ← here
    let name ← takeSpacedWhile isNameChar
    if (← peek) ≠ some '}' then refuse .wordEdgeUnclosed (← since before.place)
    let span ← since first
    next
    match namedEdges.lookup (String.ofList name) with
    | some edge => return edge
    | none => refuse .wordEdgeUnknown span

/-- A condition on words, which are those of all scripts if the mode says so. -/
def wordAnchor (edge : WordEdge) : Reader Sign :=
  return .anchor (.word edge (← modes).scripts)

/-- Reads what a letter after a backslash means that begins at a place. -/
def letterEscape (start : Place) (c : Char) : Reader Sign := do
  next
  if isEscapable c then return .character c false
  match c with
  | 'a' => return .character '\x07' false
  | 'f' => return .character '\x0c' false
  | 't' => return .character '\t' false
  | 'n' => return .character '\n' false
  | 'r' => return .character '\r' false
  | 'v' => return .character '\x0b' false
  | 'A' => return .anchor .textStart
  | 'z' => return .anchor .textEnd
  | 'b' => wordAnchor (← wordEdge start)
  | 'B' => wordAnchor .inside
  | '<' => wordAnchor .start
  | '>' => wordAnchor .stop
  | 'd' => return .family .digit false
  | 'D' => return .family .digit true
  | 's' => return .family .space false
  | 'S' => return .family .space true
  | 'w' => return .family .word false
  | 'W' => return .family .word true
  | _ => refuse .escapeUnknown (← since start)

/-- Reads an escape. -/
def escape : Reader Sign := do
  let start ← here
  next
  match ← peek with
  | none => refuse .escapeEnd (← since start)
  | some c =>
    if c.isDigit then
      next
      refuse .backreference (← since start)
    else if c = 'x' then hex 2
    else if c = 'u' then hex 4
    else if c = 'U' then hex 8
    else if c = 'p' ∨ c = 'P' then property
    else letterEscape start c

/-- Reads a sign with the part that it takes, inside a class or outside. -/
def sign (inClass : Bool) (c : Char) : Reader (Sign × Span) := do
  let start ← here
  let m ← modes
  if c = '\\' then
    let read ← escape
    return (read, ← since start)
  next
  let read : Sign :=
    if inClass then .character c false
    else if c = '.' then .dot
    else if c = '^' then .anchor (if m.lines then .lineStart m.returns else .textStart)
    else if c = '$' then .anchor (if m.lines then .lineEnd m.returns else .textEnd)
    else .character c false
  return (read, ← since start)

/-- The set of a class of characters. Without the other scripts there are only bytes, of which no
complement is a text. -/
def familySet (set : CharSet) (negated : Bool) (span : Span) : Reader CharSet := do
  if (← modes).scripts then keep .wordClassUnavailable span
  else if negated then keep .bytesNotText span
  return set

/-- The names that are those of values, and of no property. -/
def valueNames : List String := ["cf", "sc", "lc"]

/-- Keeps the issue of a property, of which none is known. -/
def keepProperty (name : String) (hasValue : Bool) (span : Span) : Reader Unit := do
  let plain := (name.toList.filter fun c => c != '_' && c != '-' && c != ' ').map Char.toLower
  if !(← modes).scripts then keep .scriptsNotAllowed span
  else if !hasValue && valueNames.contains (String.ofList plain) then
    keep .propertyValueUnknown span
  else keep .propertyUnknown span

/-- Keeps an issue if a character is written as a byte that no text has. -/
def keepByte (c : Char) (asByte : Bool) (span : Span) : Reader Unit := do
  if asByte && !(← modes).scripts && decide (128 ≤ c.toNat) then keep .bytesNotText span

/-- What a sign outside a class means. -/
def meaning (read : Sign) (span : Span) : Reader Pattern := do
  let m ← modes
  match read with
  | .character c asByte =>
    keepByte c asByte span
    if !m.anyCase then return .char (.single c)
    if m.scripts then keep .caseUnavailable span
    return .char (.eitherCase (.single c))
  | .family set negated => return .char (← familySet set negated span)
  | .property name hasValue =>
    keepProperty name hasValue span
    return .empty
  | .dot =>
    if !m.scripts then keep .bytesNotText span
    let lineEnds := if m.returns then CharSet.ranges [('\n', '\n'), ('\r', '\r')] else .single '\n'
    return .char (if m.dotAll then .compl .none else .compl lineEnds)
  | .anchor a => return .anchor a

end Reader

end Transposition.Pattern
