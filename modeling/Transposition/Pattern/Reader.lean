import Transposition.Pattern.Bracket

/-!
# Reading patterns

A pattern is a choice of rows of parts, each of which may be repeated. Parentheses make a choice a
part; with modes in front of it, they hold up to the closing parenthesis, and modes alone hold up to
the end of the group in which they stand.
-/

namespace Transposition.Pattern

/-- Why a text is no pattern. -/
inductive Refusal
  /-- Something is wrong with the text. -/
  | malformed (text : String) (issue : Issue)
  /-- The pattern asks for the words of all scripts, which are not known. -/
  | noScripts
  /-- The pattern is too large when its repetitions are written out. -/
  | tooLarge
  deriving DecidableEq, Repr

/-- The bytes that a pattern may take when its repetitions are written out. -/
def byteLimit : Nat := 10485760

/-- The bytes that a step takes. -/
def stepBytes : Nat := 32

/-- The wording of a refusal. -/
def Refusal.message : Refusal → String
  | malformed text issue => issue.report text
  | noScripts => "error building NFA"
  | tooLarge => s!"Compiled regex exceeds size limit of {byteLimit} bytes."

/-- Rows that have been read: those of the choice before the current one, and the parts of the
current one, both in reverse. A part that only sets modes is none. -/
structure Rows where
  done : List Pattern
  parts : List (Option Pattern)
  deriving DecidableEq, Repr

namespace Rows

/-- No row with no part. -/
def empty : Rows := ⟨[], []⟩

/-- Adds a part to the current row. -/
def add (r : Rows) (p : Option Pattern) : Rows := { r with parts := p :: r.parts }

/-- The current row as a pattern. -/
def row (r : Rows) : Pattern := r.parts.foldl (fun p part => .append (part.getD .empty) p) .empty

/-- Ends the current row and begins the next one. -/
def nextRow (r : Rows) : Rows := ⟨r.row :: r.done, []⟩

/-- The choice of the rows. -/
def choice (r : Rows) : Pattern := r.done.foldl (fun p row => .either row p) r.row

end Rows

/-- What an opening parenthesis begins. -/
inductive Opening
  /-- Only modes, which hold from there on. -/
  | modes
  /-- A group, opened by a part of the text. -/
  | group (opening : Span)
  deriving DecidableEq, Repr

namespace Reader

/-- Reads a decimal number. An issue with it is left to the caller. -/
def decimal : Reader (Except Issue Nat) := do
  let _ ← takeWhile isSpace
  let start ← here
  let digits ← takeSpacedWhile Char.isDigit
  let span ← since start
  let _ ← takeSpacedWhile isSpace
  match Decimal.natural? digits with
  | none => return .error ⟨.countEmpty, span, none⟩
  | some n => return if n < UInt32.size then .ok n else .error ⟨.decimalInvalid, span, none⟩

/-- Leaves out the question mark after a repetition, which changes only the order in which
repetitions are tried. -/
def skipLazy : Reader Unit := do
  if (← peek) == some '?' then next

/-- Reads a repetition in braces. -/
def countedRepetition (p : Pattern) : Reader Pattern := do
  let start ← here
  let unclosed : Reader Unit := do refuse .countUnclosed (← since start)
  nextSpaced
  if (← peek).isNone then unclosed
  let least ← decimal
  if (← peek).isNone then unclosed
  let (least, most) ← do
    if (← peek) == some ',' then
      nextSpaced
      if (← peek).isNone then unclosed
      if (← peek) == some '}' then pure (← least, none)
      else
        let least ← least
        let most ← decimal
        pure (least, some (← most))
    else
      let least ← least
      pure (least, some least)
  if (← peek) ≠ some '}' then unclosed
  nextSpaced
  skipLazy
  if most.any (· < least) then refuse .countOrder (← since start)
  return repeating p least most

/-- Reads a repetition of a part. -/
def repetition (c : Char) (p : Pattern) : Reader Pattern := do
  if c = '{' then countedRepetition p
  else
    next
    skipLazy
    return if c = '?' then .repeated p 0 (some 1)
      else .repeated p (if c = '+' then 1 else 0) none

/-- The characters that may stand in the name of a group, other than at its front. -/
def isNameChar (c : Char) : Bool :=
  c == '_' || c == '.' || c == '[' || c == ']' || c.isAlphanum || decide (128 ≤ c.toNat)

/-- Reads the name of a group up to the bracket that closes it. -/
def groupName : Reader Unit := do
  let start ← here
  match ← peek with
  | none => refuse .nameEnd (← nowhere)
  | some c =>
    if c ≠ '>' ∧ ¬(isNameChar c ∧ ¬c.isDigit ∧ c ≠ '.' ∧ c ≠ '[' ∧ c ≠ ']') then
      refuse .nameCharacter (← nextSpan)
  let name ← takeWhile isNameChar
  let span ← since start
  match ← peek with
  | none => refuse .nameEnd (← nowhere)
  | some '>' =>
    next
    if name.isEmpty then refuse .nameEmpty ⟨start, start⟩
    match (← get).names.lookup (String.ofList name) with
    | some earlier => refuseClash .nameTwice span earlier
    | none => modify fun s => { s with names := (String.ofList name, span) :: s.names }
  | some _ => refuse .nameCharacter (← nextSpan)

/-- Reads the letters of modes up to the colon or the parenthesis after them, with the parts of the
text where they stand. Those read so far are kept in reverse. -/
def modeLetters : Nat → List (Char × Span) → Reader (List (Char × Span))
  | 0, _ => do refuse .modeEnd (← nowhere)
  | n + 1, letters => do
    match ← peek with
    | none => refuse .modeEnd (← nowhere)
    | some c =>
      if c = ':' ∨ c = ')' then
        match letters with
        | ('-', span) :: _ => refuse .modeNegationDangling span
        | _ => return letters.reverse
      else
        let span ← nextSpan
        if c ≠ '-' ∧ ¬"imsUuRx".toList.contains c then refuse .modeUnknown span
        match letters.lookup c with
        | some earlier =>
          refuseClash (if c = '-' then .modeNegationTwice else .modeTwice) span earlier
        | none =>
          next
          modeLetters n ((c, span) :: letters)

/-- Reads an opening parenthesis and what belongs to it. -/
def opening : Reader Opening := do
  let start ← here
  next
  let span ← since start
  skipSpace
  if ← takeAny ["?=", "?!", "?<=", "?<!"] then refuse .lookAround (← since start)
  let inner ← nowhere
  if ← takeAny ["?P<", "?<"] then
    groupName
    return .group span
  if ← take "?" then
    if (← peek).isNone then refuse .groupUnclosed span
    let letters ← modeLetters ((← get).rest.length + 1) []
    let closed := (← peek) == some ')'
    next
    if closed && letters.isEmpty then refuse .repetitionMissing inner
    setModes ((← modes).setAll (letters.map Prod.fst))
    return if closed then .modes else .group span
  return .group span

/-- Reads rows up to the end of the group that a part of the text opened, or up to the end of the
text. The number bounds the steps. -/
def rows (group : Option Span) : Nat → Rows → Reader Pattern
  | 0, r => return r.choice
  | n + 1, r => do
    skipSpace
    match ← peek with
    | none =>
      match group with
      | some span => refuse .groupUnclosed span
      | none => return r.choice
    | some ')' =>
      if group.isNone then refuse .groupUnopened (← nextSpan)
      next
      return r.choice
    | some '|' =>
      next
      rows group n r.nextRow
    | some '(' =>
      let outer ← modes
      match ← opening with
      | .modes => rows group n (r.add none)
      | .group span =>
        let p ← rows (some span) n .empty
        setModes outer
        rows group n (r.add (some p))
    | some '[' =>
      let (set, _) ← bracketed (2 * (← get).rest.length)
      rows group n (r.add (some (.char set)))
    | some c =>
      if c = '?' ∨ c = '*' ∨ c = '+' ∨ c = '{' then
        match r.parts with
        | some p :: parts =>
          let p ← repetition c p
          rows group n ⟨r.done, some p :: parts⟩
        | _ => refuse .repetitionMissing (← nowhere)
      else
        let (read, span) ← sign false c
        let p ← meaning read span
        rows group n (r.add (some p))

end Reader

/-- Reads a pattern. -/
def ofText (text : String) : Except Refusal Pattern :=
  match (Reader.rows none (text.length + 1) .empty).run (.ofText text) with
  | .error issue => .error (.malformed text issue)
  | .ok (p, s) =>
    match s.meaningless with
    | some issue => .error (.malformed text issue)
    | none =>
      if byteLimit < stepBytes * p.size then .error .tooLarge
      else if p.asksForScripts then .error .noScripts
      else .ok p

end Transposition.Pattern
