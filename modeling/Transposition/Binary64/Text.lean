import Transposition.Binary64.Basic
import Transposition.Decimal.Digits

/-!
# Writing floating-point numbers

A number is written in positional notation with the fewest decimal digits that read back to it. Of
several such decimals it is the nearest, and of two that are equally near the larger. A fixed number
of places is rounded from the exact value instead.
-/

namespace Transposition.Binary64

/-- The reals that round to a number, in units of a quarter of its last place: the number itself,
the lower end and the upper end. Below a power of two the gap is only half as wide. -/
def roundingInterval (significand : Nat) (exponent : Int) : Nat × Nat × Nat :=
  let low := if significand = 1 <<< (precision - 1) ∧ minExponent < exponent then 1 else 2
  (4 * significand, 4 * significand - low, 4 * significand + 2)

/-- The decimal exponent of the leading digit of a positive quotient. -/
def leadingExponent (num den : Nat) : Int :=
  if den ≤ num then (Decimal.length (num / den) : Int) - 1
  else -(Decimal.length ((den + num - 1) / num - 1) : Int)

/-- The shortest decimal that reads back to a positive number: its digits as one number, and the
exponent of ten of the last one. The first place tried lies above the leading digit, for the numbers
just below a power of ten that the power reads back to. -/
def shortest (significand : Nat) (exponent : Int) : Nat × Int :=
  let (value, low, high) := roundingInterval significand exponent
  let (scale, den) := ratio 1 (exponent - 2)
  let lead := leadingExponent (value * scale) den
  -- Whether `c` units of `10 ^ place` lie in the interval, whose ends belong to it if they are even.
  let fits (c : Nat) (place : Int) : Bool :=
    let c := c * Nat.pow 10 place.toNat * den
    let shift := Nat.pow 10 (-place).toNat
    let (l, h) := (low * scale * shift, high * scale * shift)
    if significand % 2 = 0 then decide (l ≤ c ∧ c ≤ h) else decide (l < c ∧ c < h)
  -- The candidate with so many digits from the leading one on.
  let candidate (digits : Nat) : Option (Nat × Int) :=
    let place := lead + 1 - digits
    let (num, unit) := (value * scale * Nat.pow 10 (-place).toNat, den * Nat.pow 10 place.toNat)
    let down := num / unit
    match fits down place, fits (down + 1) place with
    | true, true => some (if 2 * num < (2 * down + 1) * unit then down else down + 1, place)
    | true, false => some (down, place)
    | false, true => some (down + 1, place)
    | false, false => none
  ((List.range 18).findSome? candidate).getD (value * scale / den, 0)

/-- A decimal in positional notation. -/
def positional (digits : Nat) (place : Int) : String :=
  let ds := Nat.toDigits 10 digits
  let zeros (n : Nat) := List.replicate n '0'
  let fraction := (-place).toNat
  String.ofList <|
    if 0 ≤ place then ds ++ zeros place.toNat
    else if fraction < ds.length then
      ds.take (ds.length - fraction) ++ '.' :: ds.drop (ds.length - fraction)
    else '0' :: '.' :: zeros (fraction - ds.length) ++ ds

/-- The text of a number: the fewest digits, in positional notation. -/
def text : Binary64 → String
  | .nan => "NaN"
  | .infinite negative => if negative then "-inf" else "inf"
  | .finite negative significand exponent =>
    let size :=
      if significand = 0 then "0"
      else
        let (digits, place) := shortest significand exponent
        positional digits place
    if negative then "-" ++ size else size

/-- The text of a number that is not negative with one decimal place, rounded from its exact value,
a half to the even digit. -/
def tenths : Binary64 → String
  | .finite _ m e =>
    let (num, den) := ratio m e
    let n := Decimal.roundDiv (num * 10) den
    toString (n / 10) ++ "." ++ toString (n % 10)
  | other => other.text

end Transposition.Binary64
