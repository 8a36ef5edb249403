import Transposition.Pattern.Issue
import Transposition.Space

/-!
# Going through the text of a pattern

A scan is what is left of a text, with the place that has been reached and the modes that the text
has set. The functions of `Reader` go on in it, or end with an issue. An issue that does not keep
the text from being read, but leaves it without a meaning, is kept until the end; the first one
counts.
-/

namespace Transposition.Pattern

/-- How a pattern is to be understood. -/
structure Modes where
  /-- Letters stand for both cases. -/
  anyCase : Bool
  /-- The beginning and the end are those of lines. -/
  lines : Bool
  /-- A dot stands for a line end, too. -/
  dotAll : Bool
  /-- Carriage returns count as line ends. -/
  returns : Bool
  /-- Characters are those of all scripts, and not only the first 128. -/
  scripts : Bool
  /-- White space and remarks are left out. -/
  spaced : Bool
  deriving DecidableEq, Repr

/-- The modes that a pattern begins with. -/
def Modes.initial : Modes := ⟨false, false, false, false, true, false⟩

/-- Sets the mode that a letter names. -/
def Modes.set (m : Modes) (letter : Char) (value : Bool) : Modes :=
  match letter with
  | 'i' => { m with anyCase := value }
  | 'm' => { m with lines := value }
  | 's' => { m with dotAll := value }
  | 'R' => { m with returns := value }
  | 'u' => { m with scripts := value }
  | 'x' => { m with spaced := value }
  | _ => m

/-- Sets the modes that letters name, on before a minus sign and off after it. -/
def Modes.setAll (m : Modes) (letters : List Char) : Modes :=
  let on := letters.takeWhile (· ≠ '-')
  let off := letters.dropWhile (· ≠ '-')
  off.foldl (fun m letter => m.set letter false) (on.foldl (fun m letter => m.set letter true) m)

/-- A text of which a part has been read. -/
structure Scan where
  /-- What is left of it. -/
  rest : List Char
  /-- The place that has been reached. -/
  place : Place
  /-- How what follows is to be understood. -/
  modes : Modes
  /-- The names of groups, and where they stand. -/
  names : List (String × Span)
  /-- The first part that has no meaning. -/
  meaningless : Option Issue
  deriving DecidableEq, Repr

namespace Scan

/-- The scan of a text from its beginning. -/
def ofText (text : String) : Scan := ⟨text.toList, .first, .initial, [], none⟩

/-- Goes on by a character. -/
def next (s : Scan) : Scan :=
  match s.rest with
  | [] => s
  | c :: rest => { s with rest := rest, place := s.place.after c }

/-- What is left of a text after white space and remarks, each from a number sign to the end of its
line, and the place where it begins. -/
def afterSpace (inRemark : Bool) (place : Place) : List Char → Place × List Char
  | [] => (place, [])
  | c :: rest =>
    if inRemark then afterSpace (c ≠ '\n') (place.after c) rest
    else if isSpace c then afterSpace false (place.after c) rest
    else if c = '#' then afterSpace true (place.after c) rest
    else (place, c :: rest)

/-- Goes on to what is not left out. -/
def skipSpace (s : Scan) : Scan :=
  if s.modes.spaced then
    let (place, rest) := afterSpace false s.place s.rest
    { s with rest := rest, place := place }
  else s

/-- Takes characters while a test holds, but at most so many; between them, white space is left out
if `spaced` says so. -/
def takeWhile (test : Char → Bool) (spaced : Bool) : Nat → Scan → List Char × Scan
  | 0, s => ([], s)
  | n + 1, s =>
    match s.rest with
    | [] => ([], s)
    | c :: _ =>
      if test c then
        let (cs, s) := takeWhile test spaced n (if spaced then s.next.skipSpace else s.next)
        (c :: cs, s)
      else ([], s)

end Scan

/-- Reads on in a text, or ends with an issue. -/
abbrev Reader := StateT Scan (Except Issue)

namespace Reader

/-- The next character, if there is one. -/
def peek : Reader (Option Char) := return (← get).rest.head?

/-- The character after the next one and what is left out after it. -/
def peekAfterSpace : Reader (Option Char) := return (← get).next.skipSpace.rest.head?

/-- The place that has been reached. -/
def here : Reader Place := return (← get).place

/-- The part from a place up to the one that has been reached. -/
def since (start : Place) : Reader Span := return ⟨start, ← here⟩

/-- The part that is empty and lies where the scan is. -/
def nowhere : Reader Span := return ⟨← here, ← here⟩

/-- The part that the next character takes. -/
def nextSpan : Reader Span := return ⟨← here, (← get).next.place⟩

/-- The modes. -/
def modes : Reader Modes := return (← get).modes

/-- Changes the modes. -/
def setModes (m : Modes) : Reader Unit := modify fun s => { s with modes := m }

/-- Goes on by a character. -/
def next : Reader Unit := modify Scan.next

/-- Goes on to what is not left out. -/
def skipSpace : Reader Unit := modify Scan.skipSpace

/-- Goes on by a character and what is left out after it. -/
def nextSpaced : Reader Unit := modify fun s => s.next.skipSpace

/-- Takes characters while a test holds. -/
def takeWhile (test : Char → Bool) : Reader (List Char) :=
  modifyGet fun s => s.takeWhile test false s.rest.length

/-- Takes characters while a test holds, and leaves out what stands between them. -/
def takeSpacedWhile (test : Char → Bool) : Reader (List Char) :=
  modifyGet fun s => s.takeWhile test true s.rest.length

/-- Takes a text, if it is next. -/
def take (text : String) : Reader Bool := do
  if text.toList.isPrefixOf (← get).rest then
    text.toList.forM fun _ => next
    return true
  else return false

/-- Takes the first of several texts that is next. -/
def takeAny : List String → Reader Bool
  | [] => return false
  | text :: others => do if ← take text then return true else takeAny others

/-- Ends with an issue. -/
def refuse {α : Type} (cause : Cause) (span : Span) : Reader α := throw ⟨cause, span, none⟩

/-- Ends with an issue that clashes with an earlier part. -/
def refuseClash {α : Type} (cause : Cause) (span earlier : Span) : Reader α :=
  throw ⟨cause, span, some earlier⟩

/-- Keeps an issue of a part that has no meaning. -/
def keep (cause : Cause) (span : Span) : Reader Unit :=
  modify fun s => { s with meaningless := s.meaningless <|> some ⟨cause, span, none⟩ }

end Reader

end Transposition.Pattern
