/-!
Decimal digits and numbers in scientific notation.
-/

namespace LineShell

/-- A decimal digit is one of the ten ASCII digits. -/
def isDigit (c : Char) : Bool := '0' ≤ c && c ≤ '9'

def digitValue (c : Char) : Nat := c.toNat - '0'.toNat

/-- The natural number that a row of digits writes. -/
def digitsValue (digits : List Char) : Nat :=
  digits.foldl (fun value digit => 10 * value + digitValue digit) 0

/-- The number `digits * 10 ^ exponent`, with a sign that zero keeps. -/
structure Decimal where
  negative : Bool
  digits : Nat
  exponent : Int
deriving DecidableEq

namespace Decimal

/-- The decimal with these digits before and after the point, times a power of ten. -/
def ofParts (negative : Bool) (whole fraction : List Char) (exponent : Int) : Decimal where
  negative := negative
  digits := digitsValue (whole ++ fraction)
  exponent := exponent - fraction.length

end Decimal

/-- The integer that an optional sign and a row of digits write, if it has 64 bits. -/
def readInteger (negative : Bool) (digits : List Char) : Option Int64 :=
  let value : Int := if negative then -(digitsValue digits : Int) else digitsValue digits
  if Int64.minValue.toInt ≤ value && value ≤ Int64.maxValue.toInt then some (Int64.ofInt value)
  else none

def integerText (n : Int64) : String :=
  match n.toInt with
  | .ofNat value => String.ofList (Nat.toDigits 10 value)
  | .negSucc value => String.ofList ('-' :: Nat.toDigits 10 (value + 1))

end LineShell
