import Transposition.Binary64.Basic
import Transposition.Decimal.Digits

/-!
# Reading floating-point numbers

A decimal number may have a sign, a fraction and an exponent; one of the two sides of the point may
be empty, but not both. Infinity and the absence of a number are words, in any case of letters.
-/

namespace Transposition.Binary64

/-- The number nearest to `digits * 10 ^ exponent`. Sizes far beyond the range are decided without
computing the power. -/
def ofDecimal (negative : Bool) (digits : Nat) (exponent : Int) : Binary64 :=
  let magnitude := Decimal.length digits + exponent
  if digits = 0 ∨ magnitude < -400 then zero negative
  else if 400 < magnitude then .infinite negative
  else ofRatio negative (digits * Nat.pow 10 exponent.toNat) (Nat.pow 10 (-exponent).toNat)

/-- The exponent of a decimal number: nothing, or a letter and a number with an optional sign. -/
def exponent? : List Char → Option Int
  | [] => some 0
  | c :: rest => if c = 'e' ∨ c = 'E' then Decimal.signed? rest else none

/-- A decimal number without its sign. -/
def unsignedDecimal? (negative : Bool) (cs : List Char) : Option Binary64 :=
  let whole := cs.takeWhile Decimal.isDigit
  let (fraction, rest) :=
    match cs.dropWhile Decimal.isDigit with
    | '.' :: rest => (rest.takeWhile Decimal.isDigit, rest.dropWhile Decimal.isDigit)
    | rest => ([], rest)
  match Decimal.natural? (whole ++ fraction), exponent? rest with
  | some digits, some exponent => some (ofDecimal negative digits (exponent - fraction.length))
  | _, _ => none

/-- A number without its sign. -/
def unsigned? (negative : Bool) (cs : List Char) : Option Binary64 :=
  let word := String.ofList (cs.map Char.toLower)
  if word = "inf" ∨ word = "infinity" then some (.infinite negative)
  else if word = "nan" then some .nan
  else unsignedDecimal? negative cs

/-- Reads a number. -/
def ofChars? : List Char → Option Binary64
  | '+' :: rest => unsigned? false rest
  | '-' :: rest => unsigned? true rest
  | cs => unsigned? false cs

end Transposition.Binary64
