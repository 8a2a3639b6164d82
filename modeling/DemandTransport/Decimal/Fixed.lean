import DemandTransport.Decimal.Binary
import DemandTransport.Decimal.Digits

/-!
# A fixed number of places

A binary value is written with a given number of decimal places. Its exact value is rounded to the
nearest such number, a half to the even neighbour, and its sign is kept even when nothing else of it
is left.
-/

namespace DemandTransport.Decimal

/-- The whole number nearest to a quotient, the even one of two equally near. -/
def roundQuotient (numerator denominator : Nat) : Nat :=
  let whole := numerator / denominator
  let rest := 2 * (numerator % denominator)
  if rest < denominator ∨ (rest = denominator ∧ whole % 2 = 0) then whole else whole + 1

/-- A count of units of the last of `places` decimal places. -/
def placesText (places units : Nat) : String :=
  if places = 0 then ofNat units
  else
    let unit := Nat.pow 10 places
    ofNat (units / unit) ++ "." ++ padLeft places '0' (ofNat (units % unit))

/-- The text of a binary value with `places` decimal places. -/
def fixedOf (places : Nat) : BinaryValue → String
  | .undefined => "NaN"
  | .infinite negative => if negative then "-inf" else "inf"
  | .finite negative mantissa power _ =>
    let units := roundQuotient (mantissa * Nat.pow 2 power.toNat * Nat.pow 10 places)
      (Nat.pow 2 (-power).toNat)
    (if negative then "-" else "") ++ placesText places units

/-- A binary64 number with `places` decimal places. -/
def fixed (places : Nat) (x : Float) : String := fixedOf places (.ofFloat x)

/-- A binary32 number with `places` decimal places. -/
def fixed32 (places : Nat) (x : Float32) : String := fixedOf places (.ofFloat32 x)

end DemandTransport.Decimal
