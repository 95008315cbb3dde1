import LineShell.Number.Decimal

/-!
Double-precision numbers, held as their 64 bits. A finite one is a whole significand below
`2 ^ 53` times a power of two; reading a decimal gives the nearest double, a tie going to the even
significand, and a decimal beyond the largest double gives infinity.
-/

namespace LineShell

structure Double where
  bits : UInt64
deriving DecidableEq

namespace Double

/-- What the bits of a double mean, the sign apart. -/
inductive Magnitude where
  | finite (significand : Nat) (exponent : Int)
  | infinite
  | notANumber
deriving DecidableEq

def negative (x : Double) : Bool := Nat.pow 2 63 ≤ x.bits.toNat

/-- The bits without the sign. Among numbers they increase with the absolute value. -/
def magnitudeBits (x : Double) : Nat := x.bits.toNat % Nat.pow 2 63

def infinityBits : Nat := 2047 * Nat.pow 2 52

def ofMagnitudeBits (negative : Bool) (bits : Nat) : Double :=
  ⟨UInt64.ofNat (if negative then Nat.pow 2 63 + bits else bits)⟩

def magnitude (x : Double) : Magnitude :=
  let field : Nat := x.magnitudeBits / Nat.pow 2 52
  let fraction : Nat := x.magnitudeBits % Nat.pow 2 52
  if field = 2047 then
    if fraction = 0 then .infinite else .notANumber
  else if field = 0 then
    .finite fraction (-1074)
  else
    .finite (Nat.pow 2 52 + fraction) ((field : Int) - 1075)

/-- Numeric equality: a NaN equals nothing, and the two zeros are equal. -/
def numericEq (x y : Double) : Bool :=
  x.magnitude != .notANumber && y.magnitude != .notANumber &&
    (x.bits == y.bits || (x.magnitudeBits == 0 && y.magnitudeBits == 0))

/-- The quotient rounded to the nearest whole number, a half to the even neighbour. -/
def roundDiv (numerator denominator : Nat) : Nat :=
  let quotient := numerator / denominator
  let twice := 2 * (numerator % denominator)
  if twice < denominator then quotient
  else if denominator < twice then quotient + 1
  else quotient + quotient % 2

/-- The quotient of `ratio` by a power of `base`, as a quotient of whole numbers again. -/
def scaleDown (base : Nat) (ratio : Nat × Nat) (exponent : Int) : Nat × Nat :=
  if 0 ≤ exponent then (ratio.1, ratio.2 * Nat.pow base exponent.toNat)
  else (ratio.1 * Nat.pow base (-exponent).toNat, ratio.2)

/-- The largest `k` such that `2 ^ k` is at most the positive quotient. The difference of the two
logarithms is that `k` or one more. -/
def floorLog2 (ratio : Nat × Nat) : Int :=
  let estimate : Int := (ratio.1.log2 : Int) - ratio.2.log2
  let scaled := scaleDown 2 ratio estimate
  if scaled.2 ≤ scaled.1 then estimate else estimate - 1

/-- The bits of the double nearest to a positive quotient. The exponent is chosen so that the
significand has 53 bits, unless that would fall below the least exponent. A significand that
rounds up to `2 ^ 53` carries into the exponent field, which is then the right one. -/
def nearestBits (ratio : Nat × Nat) : Nat :=
  let exponent := max (floorLog2 ratio - 52) (-1074)
  let scaled := scaleDown 2 ratio exponent
  min infinityBits ((exponent + 1074).toNat * Nat.pow 2 52 + roundDiv scaled.1 scaled.2)

/-- The double nearest to a decimal. Exponents that can only give zero or infinity are answered
without forming the power of ten: the digits are below `10 ^ (log2 digits + 1)`. -/
def ofDecimal (d : Decimal) : Double :=
  ofMagnitudeBits d.negative <|
    if d.digits = 0 then 0
    else if 400 < d.exponent then infinityBits
    else if d.exponent + d.digits.log2 + 1 < -400 then 0
    else nearestBits (scaleDown 10 (d.digits, 1) (-d.exponent))

end Double
end LineShell
