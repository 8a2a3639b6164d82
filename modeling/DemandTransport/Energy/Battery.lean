import DemandTransport.Energy.Error
import DemandTransport.Scalar

/-!
# Batteries

A battery holds an amount of energy between nothing and its capacity. Energy that it cannot take or
give is lost from the account, and the change that was made is told.
-/

namespace DemandTransport

/-- A battery with its state of charge, in kWh. -/
structure Battery (R : Type) where
  /-- What it holds when it is full. -/
  capacity : R
  /-- What it holds now. -/
  charge : R
  deriving BEq, DecidableEq, Repr

namespace Battery

variable {R : Type} [Scalar R]

/-- A battery of positive capacity charged between empty and full. -/
def make (capacity charge : R) : Except (EnergyError R) (Battery R) :=
  if ¬(Scalar.isFinite capacity ∧ 0 < capacity) then .error (.invalidBattery (.capacity capacity))
  else if ¬(0 ≤ charge ∧ charge ≤ capacity) then
    .error (.invalidBattery (.charge charge capacity))
  else .ok ⟨capacity, charge⟩

/-- A battery charged to a share of its capacity, which is moved into `[0, 1]`. -/
def ofShare (capacity share : R) : Except (EnergyError R) (Battery R) :=
  make capacity (capacity * Scalar.clamp share 0 1)

/-- State of charge as a share of the capacity. -/
def share (battery : Battery R) : R := battery.charge / battery.capacity

/-- Whether the battery can take no more. -/
def isFull (battery : Battery R) : Bool := battery.capacity ≤ battery.charge

/-- Add energy, or draw it if the amount is negative. The first component is the change made. -/
def apply (battery : Battery R) (kwh : R) : R × Battery R :=
  let charge := Scalar.clamp (battery.charge + kwh) 0 battery.capacity
  (charge - battery.charge, { battery with charge := charge })

end Battery

end DemandTransport
