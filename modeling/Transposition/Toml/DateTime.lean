import Transposition.Decimal.Digits
import Transposition.Toml.Blank

/-!
# Dates and times

A date, a time of day, or a date with a time of day and perhaps an offset from universal time. The
parts have fixed widths and ranges; months have their lengths, and a minute may have a leap second.
-/

namespace Transposition.Toml

/-- Reads a number of exactly that many digits from a range. -/
def fixed? (width low high : Nat) (cs : List Char) : Option (Nat × List Char) :=
  let front := cs.take width
  if front.length < width then none
  else
    match Decimal.natural? front with
    | some n => if low ≤ n ∧ n ≤ high then some (n, cs.drop width) else none
    | none => none

/-- The number of days of a month. -/
def daysInMonth (year month : Nat) : Nat :=
  if month = 2 then
    if year % 4 = 0 ∧ (year % 100 ≠ 0 ∨ year % 400 = 0) then 29 else 28
  else if month ∈ [4, 6, 9, 11] then 30
  else 31

/-- The text after a date. -/
def skipDate? (cs : List Char) : Option (List Char) := do
  let (year, cs) ← fixed? 4 0 9999 cs
  let cs ← expect? '-' cs
  let (month, cs) ← fixed? 2 1 12 cs
  let cs ← expect? '-' cs
  let (_, cs) ← fixed? 2 1 (daysInMonth year month) cs
  return cs

/-- The text after a fraction of a second, if there is one. -/
def skipFraction : List Char → List Char
  | '.' :: c :: rest =>
    if Decimal.isDigit c then rest.dropWhile Decimal.isDigit else '.' :: c :: rest
  | cs => cs

/-- The text after a time of day. -/
def skipTime? (cs : List Char) : Option (List Char) := do
  let (_, cs) ← fixed? 2 0 23 cs
  let cs ← expect? ':' cs
  let (_, cs) ← fixed? 2 0 59 cs
  let cs ← expect? ':' cs
  let (_, cs) ← fixed? 2 0 60 cs
  return skipFraction cs

/-- The text after an offset of hours and minutes. -/
def skipHours? (cs : List Char) : Option (List Char) := do
  let (_, cs) ← fixed? 2 0 23 cs
  let cs ← expect? ':' cs
  let (_, cs) ← fixed? 2 0 59 cs
  return cs

/-- The text after an offset from universal time, if there is one. -/
def skipOffset : List Char → List Char
  | c :: rest =>
    if c = 'Z' ∨ c = 'z' then rest
    else if c = '+' ∨ c = '-' then (skipHours? rest).getD (c :: rest)
    else c :: rest
  | [] => []

/-- The text after a time of day that follows a date, if there is one. -/
def skipTimeOfDate : List Char → List Char
  | c :: rest =>
    if c = 'T' ∨ c = 't' ∨ c = ' ' then ((skipTime? rest).map skipOffset).getD (c :: rest)
    else c :: rest
  | [] => []

/-- Reads a date, a time, or both, and gives its spelling. -/
def dateTime? (cs : List Char) : Option (String × List Char) :=
  (((skipDate? cs).map skipTimeOfDate).or (skipTime? cs)).map fun rest =>
    (String.ofList (cs.take (cs.length - rest.length)), rest)

end Transposition.Toml
