import DemandTransport.Demand.Request
import DemandTransport.Fleet.Vehicle

/-!
# How requests and vehicles are brought together

The settings of the dispatcher and of the charging planner, the ways to measure the cost of taking
a request, and what can go wrong.
-/

namespace DemandTransport

/-- How the cost of taking a request is measured; less is better. -/
inductive CostFunction where
  /-- Seconds from now until boarding begins. -/
  | pickupArrival
  /-- Seconds of driving, without and with the passenger. -/
  | driveTime
  /-- Metres driven, without and with the passenger. -/
  | distance
  deriving DecidableEq, Repr

/-- The name of a cost function. -/
def CostFunction.name : CostFunction → String
  | .pickupArrival => "pickup_arrival"
  | .driveTime => "drive_time"
  | .distance => "distance"

/-- The cost function with a name. -/
def CostFunction.ofName? (name : String) : Option CostFunction :=
  [pickupArrival, driveTime, distance].find? fun f => f.name == name

/-- What can be measured of a plan for a request. -/
structure CostInputs (R : Type) where
  /-- When the plan is made. -/
  now : Time
  /-- When boarding begins. -/
  pickupAt : Time
  /-- Seconds of driving. -/
  driveSecs : Nat
  /-- Metres driven. -/
  driveLength : R

/-- The cost of a plan. -/
def CostFunction.evaluate {R : Type} [Scalar R] : CostFunction → CostInputs R → R
  | .pickupArrival, inputs => Scalar.ofNat (inputs.pickupAt.since inputs.now)
  | .driveTime, inputs => Scalar.ofNat inputs.driveSecs
  | .distance, inputs => inputs.driveLength

/-- The settings of the dispatcher. -/
structure DispatchConfig where
  /-- Seconds for boarding. -/
  pickupSecs : Nat := 120
  /-- Seconds for alighting. -/
  dropoffSecs : Nat := 60
  /-- How plans are compared. -/
  cost : CostFunction := .pickupArrival
  /-- Seconds after which an unplanned request is cancelled, if it ever is. -/
  expireAfterSecs : Option Nat := none
  /-- Whether an unplanned request is cancelled when its window has closed. -/
  cancelAfterWindow : Bool := false
  deriving DecidableEq, Repr

/-- When idle vehicles are sent to charge. Both bounds are shares of the battery's capacity. -/
structure ChargingPolicy (R : Type) where
  /-- Vehicles charged to less are sent to a charger. -/
  minSoc : R
  /-- Charging stops here. -/
  targetSoc : R
  deriving Repr

/-- The usual bounds: from below a fifth up to four fifths. -/
def ChargingPolicy.usual {R : Type} [Scalar R] : ChargingPolicy R := ⟨0.2, 0.8⟩

/-- What is wrong with settings. -/
inductive ConfigFault (R : Type) where
  /-- Boarding or alighting takes no time. -/
  | serviceTimes (pickupSecs dropoffSecs : Nat)
  /-- The bounds for charging are no shares or not in order. -/
  | thresholds (minSoc targetSoc : R)
  deriving Repr

/-- Why a planned request cannot be taken back. -/
inductive RetractFault where
  /-- Its pickup and its dropoff are not both in the schedule. -/
  | notScheduled
  /-- Its pickup has been begun. -/
  | pickupBegun (status : TaskStatus)
  /-- The schedule refuses the change. -/
  | refused (cause : ScheduleError)
  deriving DecidableEq, Repr

/-- What can go wrong with dispatching, beyond requests that no vehicle can serve. -/
inductive DispatchError (R : Type) where
  /-- A plan could not be written into the schedule. -/
  | invalidInsertion (vehicle : VehicleId) (cause : ScheduleError)
  | cannotRetract (request : RequestId) (vehicle : VehicleId) (fault : RetractFault)
  | config (fault : ConfigFault R)
  | fleet (cause : FleetError R)
  | demand (cause : DemandError)
  | energy (cause : EnergyError R)
  deriving Repr

/-- The wording of a fault of settings. -/
def ConfigFault.message : ConfigFault Float → String
  | .serviceTimes pickupSecs dropoffSecs =>
    "pickup and dropoff must take at least one second (got " ++ Decimal.ofNat pickupSecs ++
      " s and " ++ Decimal.ofNat dropoffSecs ++ " s)"
  | .thresholds minSoc targetSoc =>
    "charging thresholds must satisfy 0 <= min_soc < target_soc <= 1 (got " ++
      Decimal.shortest minSoc ++ " and " ++ Decimal.shortest targetSoc ++ ")"

/-- The wording of a refusal to take a request back. -/
def RetractFault.message : RetractFault → String
  | .notScheduled => "not in the schedule"
  | .pickupBegun status => "pickup is already " ++ status.text
  | .refused cause => cause.message

/-- The wording of a dispatch error. -/
def DispatchError.message : DispatchError Float → String
  | .invalidInsertion vehicle cause =>
    "invalid insertion into vehicle " ++ vehicle.text ++ ": " ++ cause.message
  | .cannotRetract request vehicle fault =>
    "cannot retract request " ++ request.text ++ " from vehicle " ++ vehicle.text ++ ": " ++
      fault.message
  | .config fault => "invalid dispatch configuration: " ++ fault.message
  | .fleet cause => cause.message
  | .demand cause => cause.message
  | .energy cause => cause.message

/-- Boarding and alighting have to take time. -/
def DispatchConfig.validate {R : Type} (config : DispatchConfig) :
    Except (DispatchError R) Unit :=
  if config.pickupSecs = 0 ∨ config.dropoffSecs = 0 then
    .error (.config (.serviceTimes config.pickupSecs config.dropoffSecs))
  else .ok ()

/-- Whether a number is a share. -/
def IsShare {R : Type} [Scalar R] (x : R) : Prop := 0 ≤ x ∧ x ≤ 1

instance {R : Type} [Scalar R] (x : R) : Decidable (IsShare x) :=
  inferInstanceAs (Decidable (_ ∧ _))

/-- The bounds have to be shares in order. -/
def ChargingPolicy.validate {R : Type} [Scalar R] (policy : ChargingPolicy R) :
    Except (DispatchError R) Unit :=
  if IsShare policy.minSoc ∧ IsShare policy.targetSoc ∧ policy.minSoc < policy.targetSoc then
    .ok ()
  else .error (.config (.thresholds policy.minSoc policy.targetSoc))

end DemandTransport
