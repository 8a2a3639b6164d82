/-!
# Binary floating-point values

A finite binary value is a sign, a whole mantissa and a power of two. `BinaryValue.ofBits` reads it
from an interchange word of either width, so that text is produced from exact natural numbers and
never from rounded arithmetic.
-/

namespace DemandTransport

/-- A binary floating-point value, taken apart. -/
inductive BinaryValue where
  /-- No number. -/
  | undefined
  /-- Larger in magnitude than every finite value. -/
  | infinite (negative : Bool)
  /-- The number `mantissa * 2 ^ power`, with its sign. When `narrowBelow` holds, the next value
  toward zero is only half as far away as the next one away from it. -/
  | finite (negative : Bool) (mantissa : Nat) (power : Int) (narrowBelow : Bool)
  deriving DecidableEq, Repr

namespace BinaryValue

/-- The widths of the two fields of an interchange word below its sign. -/
structure Layout where
  /-- Bits of the fraction. -/
  fractionBits : Nat
  /-- Bits of the biased exponent. -/
  exponentBits : Nat
  deriving DecidableEq, Repr

/-- The 64-bit interchange word. -/
def double : Layout := ⟨52, 11⟩

/-- The 32-bit interchange word. -/
def single : Layout := ⟨23, 8⟩

/-- Take an interchange word apart. -/
def ofBits (layout : Layout) (bits : Nat) : BinaryValue :=
  let fractions := Nat.pow 2 layout.fractionBits
  let exponents := Nat.pow 2 layout.exponentBits
  let fraction := bits % fractions
  let biased := bits / fractions % exponents
  let negative := bits / (fractions * exponents) % 2 == 1
  let bias := Nat.pow 2 (layout.exponentBits - 1) - 1 + layout.fractionBits
  if biased + 1 = exponents then
    if fraction = 0 then infinite negative else undefined
  else if biased = 0 then
    finite negative fraction (1 - bias) false
  else
    finite negative (fractions + fraction) (biased - bias)
      (fraction == 0 && 1 < biased)

/-- A binary64 value, taken apart. -/
def ofFloat (x : Float) : BinaryValue := ofBits double x.toBits.toNat

/-- A binary32 value, taken apart. -/
def ofFloat32 (x : Float32) : BinaryValue := ofBits single x.toBits.toNat

end BinaryValue

end DemandTransport
