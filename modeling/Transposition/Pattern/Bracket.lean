import Transposition.Pattern.Escape

/-!
# Classes in brackets

A class in brackets lists characters, ranges and other classes, or all characters but those. Between
two such lists an operator may stand; operators are taken from left to right.
-/

namespace Transposition.Pattern

/-- A part of a class: the set, the part of the text, and whether it lists anything. -/
structure Listing where
  set : CharSet
  span : Span
  isEmpty : Bool
  deriving DecidableEq, Repr

/-- An operator between two parts of a class. -/
inductive SetOperator
  | inter
  | diff
  | symmDiff
  deriving DecidableEq, Repr

/-- What an operator makes of two sets. -/
def SetOperator.apply : SetOperator → CharSet → CharSet → CharSet
  | inter => .inter
  | diff => .diff
  | symmDiff => .symmDiff

/-- The operators by their signs. -/
def SetOperator.signs : List (String × SetOperator) :=
  [("&&", .inter), ("--", .diff), ("~~", .symmDiff)]

namespace Listing

/-- A list that begins at a place. -/
def empty (p : Place) : Listing := ⟨.none, ⟨p, p⟩, true⟩

/-- Adds a set that takes a part of the text. -/
def add (l : Listing) (set : CharSet) (span : Span) : Listing :=
  ⟨.union l.set set, ⟨if l.isEmpty then span.start else l.span.start, span.stop⟩, false⟩

end Listing

namespace Reader

/-- Keeps an issue if a list would have to be taken in either case, which is only known for the
first 128 characters. -/
def keepCase (isEmpty : Bool) (span : Span) : Reader Unit := do
  let m ← modes
  if m.anyCase && m.scripts && !isEmpty then keep .caseUnavailable span

/-- The set that is listed, in the modes that hold. -/
def listed (set : CharSet) (negated isEmpty : Bool) (span : Span) : Reader CharSet := do
  let m ← modes
  keepCase isEmpty span
  let set := CharSet.complIf negated (if m.anyCase then .eitherCase set else set)
  if !m.scripts && !set.isNarrow then keep .bytesNotText span
  return set

/-- Keeps an issue of a character in a class, where without the other scripts only the first 128
characters may stand. -/
def keepClassCharacter (c : Char) (asByte : Bool) (span : Span) : Reader Unit := do
  keepByte c asByte span
  if !(← modes).scripts && decide (128 ≤ c.toNat) then keep .scriptsNotAllowed span

/-- The character at an end of a range. -/
def rangeEnd (read : Sign × Span) : Reader (Char × Bool) :=
  match read with
  | (.character c asByte, _) => return (c, asByte)
  | (_, span) => refuse .classRangeEnd span

/-- The set of a sign in a class. -/
def classSign (read : Sign × Span) : Reader CharSet := do
  let (s, span) := read
  match s with
  | .character c asByte =>
    keepClassCharacter c asByte span
    return .single c
  | .family set negated => familySet set negated span
  | .property name hasValue =>
    keepProperty name hasValue span
    return .none
  | _ => refuse .classEscape span

/-- Reads a character or a range in a class that was opened by a part of the text. -/
def classItem (opening : Span) (c : Char) : Reader (CharSet × Span) := do
  let first ← sign true c
  skipSpace
  match ← peek with
  | none => refuse .classUnclosed opening
  | some d =>
    let after ← peekAfterSpace
    if d ≠ '-' ∨ after = some ']' ∨ after = some '-' then return (← classSign first, first.2)
    nextSpaced
    match ← peek with
    | none => refuse .classUnclosed opening
    | some e =>
      let last ← sign true e
      let span : Span := ⟨first.2.start, last.2.stop⟩
      let (low, lowAsByte) ← rangeEnd first
      let (high, highAsByte) ← rangeEnd last
      if high < low then refuse .classRangeOrder span
      keepClassCharacter low lowAsByte first.2
      keepClassCharacter high highAsByte last.2
      return (.range low high, span)

/-- Reads a class of the first 128 characters by its name, if one is next. -/
def namedClass? : Reader (Option (CharSet × Span)) := do
  let before ← get
  let start ← here
  let opened ← take "[:"
  let negated ← take "^"
  let name ← takeWhile (· ≠ ':')
  let closed ← take ":]"
  let found := if opened && closed then CharSet.named.lookup (String.ofList name) else none
  match found with
  | some chars =>
    let span ← since start
    return some (← listed chars negated false span, span)
  | none =>
    set before
    return none

/-- Reads the minus signs at the front of a list. -/
def leadingMinus (start : Place) : Nat → Listing → Reader Listing
  | 0, l => return l
  | n + 1, l => do
    if (← peek) ≠ some '-' then return l
    let l := l.add (.single '-') (← nextSpan)
    nextSpaced
    if (← peek).isNone then refuse .classUnclosed ⟨start, start⟩
    leadingMinus start n l

/-- Reads the opening of a class: whether its complement is meant, the part of the text, and what is
listed at once. A minus sign at the front and a closing bracket as the first character mean
themselves. -/
def openClass : Reader (Bool × Span × Listing) := do
  let start ← here
  let unlessEnd : Reader Unit := do
    if (← peek).isNone then refuse .classUnclosed (← since start)
  nextSpaced
  unlessEnd
  let negated := (← peek) == some '^'
  if negated then
    nextSpaced
    unlessEnd
  let l ← leadingMinus start (← get).rest.length (.empty (← here))
  if l.isEmpty && (← peek) == some ']' then
    let l := l.add (.single ']') (← nextSpan)
    nextSpaced
    unlessEnd
    return (negated, ← since start, l)
  return (negated, ← since start, l)

/-- Applies the operator before a list to what comes before it. -/
def applyPending (before : Option (SetOperator × Listing)) (l : Listing) : Reader Listing := do
  match before with
  | none => return l
  | some (operator, left) =>
    keepCase l.isEmpty l.span
    keepCase left.isEmpty left.span
    let inEitherCase (set : CharSet) : Reader CharSet :=
      return if (← modes).anyCase then .eitherCase set else set
    let set := operator.apply (← inEitherCase left.set) (← inEitherCase l.set)
    return ⟨set, ⟨left.span.start, l.span.stop⟩, false⟩

/-- Takes the sign of an operator, if one is next. -/
def operator? : List (String × SetOperator) → Reader (Option SetOperator)
  | [] => return none
  | (text, operator) :: others => do
    if ← take text then return some operator else operator? others

mutual

/-- Reads a class with its brackets. The first number bounds the steps. -/
def bracketed : Nat → Reader (CharSet × Span)
  | 0 => do refuse .classUnclosed (← nowhere)
  | n + 1 => do
    let start ← here
    let (negated, opening, l) ← openClass
    let l ← listing opening n none l
    let span ← since start
    return (← listed l.set negated l.isEmpty span, span)

/-- Reads the list of a class up to its closing bracket. -/
def listing (opening : Span) :
    Nat → Option (SetOperator × Listing) → Listing → Reader Listing
  | 0, _, _ => refuse .classUnclosed opening
  | n + 1, before, l => do
    skipSpace
    match ← peek with
    | none => refuse .classUnclosed opening
    | some ']' =>
      let l ← applyPending before l
      next
      return l
    | some '[' =>
      match ← namedClass? with
      | some (set, span) => listing opening n before (l.add set span)
      | none =>
        let (set, span) ← bracketed n
        listing opening n before (l.add set span)
    | some c =>
      match ← operator? SetOperator.signs with
      | some operator =>
        -- The operator is taken after the list before it is complete.
        let left ← applyPending before l
        listing opening n (some (operator, left)) (.empty (← here))
      | none =>
        let (set, span) ← classItem opening c
        listing opening n before (l.add set span)

end

end Reader

end Transposition.Pattern
