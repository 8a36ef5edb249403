/-!
# Digits and the numbers they stand for

Digits in a base from two to sixteen, the value of a row of them, and the plain decimal numbers of a
command line: digits with an optional sign in front, and nothing else.
-/

namespace Transposition.Decimal

/-- The value of a decimal digit. -/
def digit? (c : Char) : Option Nat :=
  if '0' ≤ c ∧ c ≤ '9' then some (c.toNat - '0'.toNat) else none

/-- The value of a hexadecimal digit, in either case. -/
def hexDigit? (c : Char) : Option Nat :=
  if '0' ≤ c ∧ c ≤ '9' then some (c.toNat - '0'.toNat)
  else if 'a' ≤ c ∧ c ≤ 'f' then some (c.toNat - 'a'.toNat + 10)
  else if 'A' ≤ c ∧ c ≤ 'F' then some (c.toNat - 'A'.toNat + 10)
  else none

/-- Whether a character is a decimal digit. -/
def isDigit (c : Char) : Bool := (digit? c).isSome

/-- Continues a number by digits in a base; the first digit is the most significant. -/
def valueFrom (base : Nat) (n : Nat) (digits : List Nat) : Nat :=
  digits.foldl (fun n d => n * base + d) n

/-- The number that a row of characters stands for, if they are all decimal digits and there is at
least one. -/
def natural? (cs : List Char) : Option Nat :=
  if cs.isEmpty then none else (cs.mapM digit?).map (valueFrom 10 0)

/-- A number with an optional plus sign. -/
def unsigned? : List Char → Option Nat
  | '+' :: rest => natural? rest
  | cs => natural? cs

/-- A number with an optional sign. -/
def signed? : List Char → Option Int
  | '+' :: rest => (natural? rest).map Int.ofNat
  | '-' :: rest => (natural? rest).map fun n => -(n : Int)
  | cs => (natural? cs).map Int.ofNat

/-- The number of decimal digits of a number; zero has one. -/
def length (n : Nat) : Nat := (Nat.toDigits 10 n).length

end Transposition.Decimal
