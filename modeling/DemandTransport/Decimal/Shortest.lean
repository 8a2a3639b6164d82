import DemandTransport.Decimal.Binary
import DemandTransport.Decimal.Digits

/-!
# The fewest digits that read back

A finite binary value is written with the fewest decimal digits that lie in the interval of numbers
rounding to it, and of those with the digits nearest to it. The text is positional at every
magnitude and shows no fraction for a whole number.
-/

namespace DemandTransport.Decimal

/-- The number `digits * 10 ^ power`. -/
structure Scaled where
  /-- The significant digits. -/
  digits : Nat
  /-- The power of ten of the last of them. -/
  power : Int
  deriving DecidableEq, Repr

/-- Positional text: zeros fill a whole number, a point cuts off the digits of a fraction. -/
def Scaled.text (d : Scaled) : String :=
  match d.power with
  | .ofNat zeros => ofNat (if d.digits = 0 then 0 else d.digits * Nat.pow 10 zeros)
  | .negSucc less =>
    let places := less + 1
    let unit := Nat.pow 10 places
    ofNat (d.digits / unit) ++ "." ++ padLeft places '0' (ofNat (d.digits % unit))

/-- The same number without trailing zeros among its digits. -/
def Scaled.trim (d : Scaled) : Scaled :=
  let zeros := ((Nat.toDigits 10 d.digits).reverse.takeWhile (· = '0')).length
  if d.digits = 0 then ⟨0, 0⟩ else ⟨d.digits / Nat.pow 10 zeros, d.power + zeros⟩

/-- The numbers that round to a binary value, as numerators over one denominator. -/
structure Interval where
  /-- The lower end. -/
  low : Nat
  /-- The value itself. -/
  mid : Nat
  /-- The upper end. -/
  high : Nat
  /-- The common denominator. -/
  denominator : Nat
  /-- Whether the ends round to the value as well. -/
  closed : Bool

/-- The interval of numbers that round to `mantissa * 2 ^ power`: half-way to either neighbour,
ends included exactly when the mantissa is even. -/
def Interval.of (mantissa : Nat) (power : Int) (narrowBelow : Bool) : Interval :=
  let quarter := power - 2
  let up := Nat.pow 2 quarter.toNat
  { low := (4 * mantissa - if narrowBelow then 1 else 2) * up
    mid := 4 * mantissa * up
    high := (4 * mantissa + 2) * up
    denominator := Nat.pow 2 (-quarter).toNat
    closed := mantissa % 2 = 0 }

namespace Interval

/-- Numerator and denominator of the value divided by a power of ten. -/
def scale (i : Interval) (numerator : Nat) (power : Int) : Nat × Nat :=
  (numerator * Nat.pow 10 (-power).toNat, i.denominator * Nat.pow 10 power.toNat)

/-- Whether `digits * 10 ^ power` rounds to the value. -/
def holds (i : Interval) (d : Scaled) : Bool :=
  let (low, denominator) := i.scale i.low d.power
  let high := (i.scale i.high d.power).1
  let number := d.digits * denominator
  if i.closed then low ≤ number && number ≤ high else low < number && number < high

/-- The power of ten of the value's leading digit. -/
def leadingPower (i : Interval) : Int :=
  if i.denominator ≤ i.mid then digitCount (i.mid / i.denominator) - 1
  else
    let below := ((List.range 400).find? fun j => i.denominator ≤ i.mid * Nat.pow 10 j).getD 400
    .neg below

/-- The neighbour of the value on the grid of `10 ^ power` that rounds to it, the nearer one if
both do, the larger one if they are equally near. -/
def onGrid? (i : Interval) (power : Int) : Option Scaled :=
  let (mid, denominator) := i.scale i.mid power
  let below : Scaled := ⟨mid / denominator, power⟩
  let above : Scaled := ⟨mid / denominator + 1, power⟩
  match i.holds below, i.holds above with
  | true, true => some (if denominator ≤ 2 * (mid % denominator) then above else below)
  | true, false => some below
  | false, true => some above
  | false, false => none

/-- The first grid with a hit, coarse grids first. Seventeen digits always suffice. -/
def shortest (i : Interval) : Scaled :=
  let lead := i.leadingPower
  ((List.range 20).findSome? fun n : Nat => i.onGrid? (lead - n)).getD ⟨0, 0⟩

end Interval

/-- The text of a binary value. -/
def shortestOf : BinaryValue → String
  | .undefined => "NaN"
  | .infinite negative => if negative then "-inf" else "inf"
  | .finite negative mantissa power narrowBelow =>
    let digits := if mantissa = 0 then ⟨0, 0⟩ else (Interval.of mantissa power narrowBelow).shortest
    (if negative then "-" else "") ++ digits.trim.text

/-- A binary64 number in the fewest digits that read back. -/
def shortest (x : Float) : String := shortestOf (.ofFloat x)

end DemandTransport.Decimal
