import LineShell.Number.Double

/-!
The fewest decimal digits that read back as a given double. On each grid of decimals with one more
digit the two neighbours of the number are tried against the interval of reals that round to it;
the first grid with a hit decides, of two hits the nearer one is taken, and of two equally near the
larger.
-/

namespace LineShell

/-- A positive whole significand times a power of ten. -/
structure ShortDecimal where
  digits : Nat
  exponent : Int
deriving DecidableEq

namespace ShortDecimal

/-- The same number with the zeros at the end of the significand moved into the exponent. -/
def strip (fuel : Nat) (d : ShortDecimal) : ShortDecimal :=
  match fuel with
  | 0 => d
  | fuel + 1 =>
    if d.digits % 10 = 0 then strip fuel ⟨d.digits / 10, d.exponent + 1⟩ else d

end ShortDecimal

/-- The reals that round to a positive double, all three in units of a quarter of its last place:
the number itself, and the ends of the interval, which belong to it or not. -/
structure RoundingInterval where
  low : Nat
  center : Nat
  high : Nat
  closed : Bool

namespace RoundingInterval

/-- Below a power of two the next smaller double is only half as far away. -/
def ofFinite (significand : Nat) (exponent : Int) : RoundingInterval where
  low :=
    if significand = Nat.pow 2 52 ∧ -1074 < exponent then 4 * significand - 1
    else 4 * significand - 2
  center := 4 * significand
  high := 4 * significand + 2
  closed := significand % 2 = 0

/-- Whether a number, in the interval's unit times a denominator, lies in the interval. -/
def contains (interval : RoundingInterval) (numerator denominator : Nat) : Bool :=
  let low := interval.low * denominator
  let high := interval.high * denominator
  if interval.closed then low ≤ numerator && numerator ≤ high
  else low < numerator && numerator < high

end RoundingInterval

/-- The power of ten below a positive quotient that is at least `10 ^ -400`. -/
def floorLog10 (ratio : Nat × Nat) : Int :=
  ((Nat.toDigits 10 (ratio.1 * Nat.pow 10 400 / ratio.2)).length : Int) - 401

/-- The decimal at this power of ten that reads back as the number, if there is one. -/
def hit? (interval : RoundingInterval) (unit : Int) (exponent : Int) : Option ShortDecimal :=
  -- A candidate `d` stands for `d * grid.1 / grid.2` units of the interval.
  let grid := Double.scaleDown 10 (Double.scaleDown 2 (1, 1) unit) (-exponent)
  let below := interval.center * grid.2 / grid.1
  let above := below + 1
  let belowHits := interval.contains (below * grid.1) grid.2
  let aboveHits := interval.contains (above * grid.1) grid.2
  let belowNearer := 2 * (interval.center * grid.2) < (below + above) * grid.1
  if belowHits && (belowNearer || !aboveHits) then some ⟨below, exponent⟩
  else if aboveHits then some ⟨above, exponent⟩
  else none

/-- The shortest decimal of the positive double `significand * 2 ^ exponent`. Seventeen digits
always suffice. -/
def shortest (significand : Nat) (exponent : Int) : ShortDecimal :=
  let interval := RoundingInterval.ofFinite significand exponent
  let unit := exponent - 2
  let leading := floorLog10 (Double.scaleDown 2 (interval.center, 1) (-unit))
  let hits := (List.range 17).findSome? fun (more : Nat) => hit? interval unit (leading - more)
  (hits.getD ⟨0, 0⟩).strip 17

end LineShell
