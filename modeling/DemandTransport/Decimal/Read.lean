import DemandTransport.Decimal.Digits

/-!
# Reading decimal numbers

A number written in decimal digits becomes the binary value nearest to it, in either width, in one
rounding.
-/

namespace DemandTransport.Decimal

/-- The number `digits * 10 ^ power` with its sign, as it was written. -/
structure Numeral where
  /-- Whether a minus sign stands in front. -/
  negative : Bool
  /-- All digits as one whole number. -/
  digits : Nat
  /-- The power of ten of the last digit. -/
  power : Int
  deriving DecidableEq, Repr

/-- The leading decimal digits of a text and what follows them. -/
def takeDigits (cs : List Char) : List Nat × List Char :=
  (cs.takeWhile Char.isDigit |>.filterMap (digitValue? 10), cs.dropWhile Char.isDigit)

/-- The numeral with the given digits before and after the point and the given exponent. -/
def Numeral.ofParts (negative : Bool) (whole fraction : List Nat) (exponent : Int) : Numeral :=
  ⟨negative, valueOfDigits 10 (whole ++ fraction), exponent - fraction.length⟩

/-- The power of ten just above the number. -/
def Numeral.magnitude (n : Numeral) : Int := digitCount n.digits + n.power

/-- The nearest binary64 value, infinite from half a unit above the largest finite one on. -/
def Numeral.toFloat (n : Numeral) : Float :=
  let size : Float :=
    if n.digits = 0 ∨ n.magnitude < -400 then 0.0
    else if 400 < n.magnitude then 1.0 / 0.0
    else Float.ofScientific n.digits (n.power < 0) n.power.natAbs
  if n.negative then -size else size

/-- The nearest binary32 value, infinite from half a unit above the largest finite one on. -/
def Numeral.toFloat32 (n : Numeral) : Float32 :=
  let size : Float32 :=
    if n.digits = 0 ∨ n.magnitude < -100 then 0.0
    else if 100 < n.magnitude then 1.0 / 0.0
    else Float32.ofScientific n.digits (n.power < 0) n.power.natAbs
  if n.negative then -size else size

end DemandTransport.Decimal
