/-!
# Scalars

Energies, lengths, rates and costs are held in a type `R` of scalars. A program runs on binary
floating point; statements about exact arithmetic are made over the rational numbers. All rules of
this library that compute with such quantities are written once, over the class `Scalar`, and name
each operation in the order in which it is carried out.
-/

namespace DemandTransport

/-- The largest number of seconds that a time or a duration may have. -/
def wordLimit : Nat := 0xffffffffffffffff

/-- The operations of this library on quantities such as energies, lengths and rates. -/
class Scalar (R : Type) extends
    Zero R, One R, Add R, Sub R, Mul R, Div R, Neg R, LT R, LE R, BEq R, OfScientific R where
  /-- The strict order is decided. -/
  decLt : DecidableLT R
  /-- The order is decided. -/
  decLe : DecidableLE R
  /-- The scalar nearest to a count. -/
  ofNat : Nat → R
  /-- Neither infinite nor undefined. -/
  isFinite : R → Bool
  /-- The largest count not above a scalar, within `0` and `wordLimit`. -/
  floor : R → Nat
  /-- The least count not below a scalar, within `0` and `wordLimit`. -/
  ceil : R → Nat
  /-- A strict order in which any two different scalars, undefined ones included, are ordered. -/
  totalLt : R → R → Bool

namespace Scalar

variable {R : Type} [Scalar R]

instance : DecidableLT R := Scalar.decLt

instance : DecidableLE R := Scalar.decLe

/-- The smaller of two scalars, and the defined one when the other is undefined. -/
def lesser (a b : R) : R := if a ≤ b then a else if b == b then b else a

/-- The larger of two scalars, and the defined one when the other is undefined. -/
def greater (a b : R) : R := if b ≤ a then a else if b == b then b else a

/-- The scalar moved into `[lo, hi]`; an undefined one stays undefined. -/
def clamp (x lo hi : R) : R :=
  let raised := if x < lo then lo else x
  if hi < raised then hi else raised

/-- Whole seconds that are enough for `secs` seconds. -/
def wholeSecs (secs : R) : Nat := if secs ≤ 0 then 0 else ceil secs

end Scalar

/-- A key that orders all binary64 values: negative ones by falling magnitude, then the others. -/
def floatOrderKey (x : Float) : Int :=
  let bits := x.toBits.toNat
  if bits < 0x8000000000000000 then bits else -((bits - 0x8000000000000000 : Nat) : Int) - 1

/-- Binary floating point, each operation rounded once. -/
instance : Scalar Float where
  zero := 0.0
  one := 1.0
  decLt := inferInstance
  decLe := inferInstance
  ofNat := Float.ofNat
  isFinite := Float.isFinite
  floor x := x.toUInt64.toNat
  ceil x := x.ceil.toUInt64.toNat
  totalLt x y := floatOrderKey x < floatOrderKey y

/-- The rational numbers, where every operation is exact. -/
instance : Scalar Rat where
  zero := 0
  one := 1
  decLt := inferInstance
  decLe := inferInstance
  ofNat n := (n : Rat)
  isFinite _ := true
  floor x := min x.floor.toNat wordLimit
  ceil x := min x.ceil.toNat wordLimit
  totalLt x y := x < y

end DemandTransport
