import LineShell.Character
import LineShell.Number.Double

/-!
Unsigned numerals as they stand between operators: digits, or digits, a point and digits. The
whole part is read digit by digit and must fit a signed 64-bit integer in both cases.
-/

namespace LineShell

inductive Numeral where
  | integer (value : Int64)
  | real (value : Double)
deriving DecidableEq

namespace Numeral

/-- A row of digits is not empty and holds nothing else. -/
def isDigits (cs : List Char) : Bool := !cs.isEmpty && cs.all isDigit

/-- The product, unless it overflows. -/
def product? (a b : Int64) : Option Int64 :=
  if a.toBitVec.smulOverflow b.toBitVec then none else some (a * b)

/-- The sum, unless it overflows. -/
def sum? (a b : Int64) : Option Int64 :=
  if a.toBitVec.saddOverflow b.toBitVec then none else some (a + b)

/-- The integer with one more digit at its end. -/
def append? (value : Int64) (c : Char) : Option Int64 := do
  let digit ← Character.digit? c
  let shifted ← product? value (Int64.ofNat 10)
  sum? shifted (Int64.ofNat digit)

/-- The integer that a row of digits writes. -/
def whole? (cs : List Char) : Option Int64 :=
  if cs.isEmpty then none else cs.foldlM append? (Int64.ofNat 0)

def readChars (cs : List Char) : Option Numeral :=
  let whole := cs.takeWhile (· != '.')
  match whole? whole, cs.dropWhile (· != '.') with
  | none, _ => none
  | some value, [] => some (.integer value)
  | some _, _ :: fraction =>
    if isDigits fraction then
      some (.real (Double.ofDecimal (Decimal.ofParts false whole fraction 0)))
    else none

def read (text : String) : Option Numeral := readChars text.toList

/-- Whether the text is an integer so far, so that a point after it begins a fraction. -/
def isInteger (text : String) : Bool :=
  match read text with
  | some (.integer _) => true
  | _ => false

end Numeral
end LineShell
