import Transposition.Binary64.Reader
import Transposition.Decimal.Digits
import Transposition.Toml.Blank

/-!
# Numbers

Integers are decimal, with an optional sign and without leading zeros, or hexadecimal, octal or
binary with a prefix and without a sign; they fit 64 bits. A number with a fraction or an exponent
is a floating-point number. An underscore may stand between two digits.
-/

namespace Transposition.Toml

/-- Reads the digits after the first one, each of which an underscore may precede. -/
def moreDigits (digit? : Char → Option Nat) : List Char → List Nat × List Char
  | '_' :: c :: rest =>
    match digit? c with
    | some d =>
      let (ds, rest) := moreDigits digit? rest
      (d :: ds, rest)
    | none => ([], '_' :: c :: rest)
  | c :: rest =>
    match digit? c with
    | some d =>
      let (ds, rest) := moreDigits digit? rest
      (d :: ds, rest)
    | none => ([], c :: rest)
  | [] => ([], [])

/-- Reads a row of digits. -/
def digits? (digit? : Char → Option Nat) : Reader (List Nat)
  | c :: rest =>
    (digit? c).map fun d =>
      let (ds, rest) := moreDigits digit? rest
      (d :: ds, rest)
  | [] => none

/-- Reads a decimal number without leading zeros; after a zero no digit is taken. -/
def decimal? : Reader (List Nat)
  | '0' :: rest => some ([0], rest)
  | cs => digits? Decimal.digit? cs

/-- Reads a sign: whether it is a minus. -/
def sign : List Char → Bool × List Char
  | '+' :: rest => (false, rest)
  | '-' :: rest => (true, rest)
  | cs => (false, cs)

/-- An integer, if it fits 64 bits. -/
def fit64 (n : Int) : Option Int :=
  if Int64.minValue.toInt ≤ n ∧ n ≤ Int64.maxValue.toInt then some n else none

/-- A digit of a base below ten. -/
def digitBelow (base : Nat) (c : Char) : Option Nat := (Decimal.digit? c).filter (· < base)

/-- The number that a row of digits in a base stands for, if it fits 64 bits. -/
def based (base : Nat) (read : Option (List Nat × List Char)) : Option (Int × List Char) :=
  match read with
  | some (ds, rest) => (fit64 (Decimal.valueFrom base 0 ds)).map fun n => (n, rest)
  | none => none

/-- Reads an integer. -/
def integer? : Reader Int
  | '0' :: 'x' :: rest => based 16 (digits? Decimal.hexDigit? rest)
  | '0' :: 'o' :: rest => based 8 (digits? (digitBelow 8) rest)
  | '0' :: 'b' :: rest => based 2 (digits? (digitBelow 2) rest)
  | cs =>
    let (negative, rest) := sign cs
    match decimal? rest with
    | some (ds, rest) =>
      let n : Int := Decimal.valueFrom 10 0 ds
      (fit64 (if negative then -n else n)).map fun n => (n, rest)
    | none => none

/-- Reads the exponent of a floating-point number. -/
def exponent? : Reader Int
  | c :: rest =>
    if c = 'e' ∨ c = 'E' then
      let (negative, rest) := sign rest
      (digits? Decimal.digit? rest).map fun (ds, rest) =>
        let n : Int := Decimal.valueFrom 10 0 ds
        (if negative then -n else n, rest)
    else none
  | [] => none

/-- A floating-point number, if it is not too large. That a negative number may be, and is infinite
then, is part of the format's reading. -/
def finish (negative : Bool) (digits : List Nat) (exponent : Int) (rest : List Char) :
    Option (Binary64 × List Char) :=
  let x := Binary64.ofDecimal negative (Decimal.valueFrom 10 0 digits) exponent
  if x = .infinite false then none else some (x, rest)

/-- Reads a word. -/
def word? (word : String) (cs : List Char) : Option (List Char) :=
  if word.toList.isPrefixOf cs then some (cs.drop word.length) else none

/-- Reads a floating-point number, which has a fraction or an exponent or is a word. -/
def float? (cs : List Char) : Option (Binary64 × List Char) :=
  let (negative, body) := sign cs
  match word? "inf" body, word? "nan" body with
  | some rest, _ => some (.infinite negative, rest)
  | _, some rest => some (.nan, rest)
  | none, none =>
    match decimal? body with
    | none => none
    | some (whole, '.' :: rest) =>
      match digits? Decimal.digit? rest with
      | none => none
      | some (fraction, rest) =>
        let (exponent, rest) := (exponent? rest).getD (0, rest)
        finish negative (whole ++ fraction) (exponent - fraction.length) rest
    | some (whole, rest) =>
      match exponent? rest with
      | some (exponent, rest) => finish negative whole exponent rest
      | none => none

end Transposition.Toml
