import LineShell.Number.Shortest

/-!
How a double is written. Both layouts use the shortest digits that read back; they differ in
whether whole numbers keep a fraction and in which numbers get an exponent.
-/

namespace LineShell

/-- The choices that one written form of doubles makes. -/
structure RealLayout where
  /-- Whole numbers end in `.0`. -/
  keepsFraction : Bool
  /-- The decimal exponents of the leading digit that are written out in full; `none` means all. -/
  positional : Option (Int × Int)

namespace RealLayout

/-- Values show reals in full, without a fraction if they are whole. -/
def plain : RealLayout where
  keepsFraction := false
  positional := none

/-- Tokens in messages keep the fraction, and have an exponent from `10 ^ 16` on and below
`10 ^ -4`. -/
def tagged : RealLayout where
  keepsFraction := true
  positional := some (-4, 15)

/-- Digits with the point after `before` of them, zeros filled in on either side. -/
def positionalChars (layout : RealLayout) (digits : List Char) (before : Int) : List Char :=
  if before ≤ 0 then
    ['0', '.'] ++ List.replicate (-before).toNat '0' ++ digits
  else
    let whole := digits.take before.toNat
    let fraction := digits.drop before.toNat
    let padded := whole ++ List.replicate (before.toNat - digits.length) '0'
    if fraction.isEmpty then padded ++ (if layout.keepsFraction then ['.', '0'] else [])
    else padded ++ '.' :: fraction

def exponentChars (digits : List Char) (leading : Int) : List Char :=
  let fraction := digits.drop 1
  digits.take 1 ++ (if fraction.isEmpty then [] else '.' :: fraction) ++ 'e' ::
    (if leading < 0 then ['-'] else []) ++ Nat.toDigits 10 leading.natAbs

def isPositional (layout : RealLayout) (leading : Int) : Bool :=
  match layout.positional with
  | none => true
  | some (least, greatest) => least ≤ leading && leading ≤ greatest

/-- The characters of `significand * 2 ^ exponent`. -/
def finiteChars (layout : RealLayout) (significand : Nat) (exponent : Int) : List Char :=
  if significand = 0 then
    layout.positionalChars ['0'] 1
  else
    let decimal := shortest significand exponent
    let digits := Nat.toDigits 10 decimal.digits
    let leading := decimal.exponent + digits.length - 1
    if layout.isPositional leading then layout.positionalChars digits (leading + 1)
    else exponentChars digits leading

def text (layout : RealLayout) (x : Double) : String :=
  let sign := if x.negative then ['-'] else []
  match x.magnitude with
  | .notANumber => "NaN"
  | .infinite => String.ofList (sign ++ ['i', 'n', 'f'])
  | .finite significand exponent => String.ofList (sign ++ layout.finiteChars significand exponent)

end RealLayout
end LineShell
