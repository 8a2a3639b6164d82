import DemandTransport.Energy.LimitedCurve

/-!
# Energy profiles

A profile holds what all vehicles of a model have in common. Consumption is linear: so much for each
kilometre driven, and so much for each hour of anything else.
-/

namespace DemandTransport

/-- The energy characteristics of a vehicle model. -/
structure EnergyProfile (R : Type) where
  /-- Battery capacity in kWh. -/
  capacity : R
  /-- How the battery takes charge. -/
  curve : Curve R
  /-- Energy for driving a kilometre, in kWh. -/
  kwhPerKm : R
  /-- Power drawn while not driving, in kW. -/
  auxKw : R
  deriving BEq, DecidableEq, Repr

namespace EnergyProfile

variable {R : Type} [Scalar R]

/-- A profile with the usual consumption of a car and nothing drawn while not driving. -/
def make (capacity : R) (curve : Curve R) : EnergyProfile R := ⟨capacity, curve, 0.18, 0.0⟩

/-- The profile with another consumption. -/
def withConsumption (profile : EnergyProfile R) (kwhPerKm auxKw : R) : EnergyProfile R :=
  { profile with kwhPerKm := kwhPerKm, auxKw := auxKw }

/-- The change of charge from driving a length in metres. -/
def driveEnergy (profile : EnergyProfile R) (length : R) : R :=
  -(length / 1000.0) * profile.kwhPerKm

/-- The change of charge from a time without driving. -/
def idleEnergy (profile : EnergyProfile R) (secs : Nat) : R :=
  -profile.auxKw * Scalar.ofNat secs / 3600.0

/-- The profile's curve at a charger of a rated power. -/
def limited (profile : EnergyProfile R) (ratedKw : R) : LimitedCurve R :=
  LimitedCurve.make profile.curve profile.capacity ratedKw

/-- A state of charge in kWh as a share of the capacity, in `[0, 1]`. -/
def share (profile : EnergyProfile R) (charge : R) : R :=
  Scalar.clamp (charge / profile.capacity) 0 1

/-- The energy gained by charging for a time from a state of charge in kWh. -/
def chargeEnergy (profile : EnergyProfile R) (charge ratedKw : R) (secs : Nat) : R :=
  let start := profile.share charge
  ((profile.limited ratedKw).advance start (Scalar.ofNat secs) - start) * profile.capacity

/-- Whole seconds that are enough to charge from a state of charge in kWh to a share of the
capacity. -/
def chargeSecsTo (profile : EnergyProfile R) (charge ratedKw target : R) : Nat :=
  Scalar.wholeSecs ((profile.limited ratedKw).timeBetween (profile.share charge) target)

end EnergyProfile

end DemandTransport
