import DemandTransport.Fleet.Vehicle

/-!
# Events

An event tells that a task has started or ended. It carries the time at which this was planned to
happen, which is never after the instant at which it is found out.
-/

namespace DemandTransport

/-- Which end of a task an event is about. -/
inductive TaskPhase where
  | started
  | ended
  deriving DecidableEq, Repr

/-- The name of a phase. -/
def TaskPhase.text : TaskPhase → String
  | started => "Started"
  | ended => "Ended"

/-- What a task is about. -/
inductive Activity where
  | stay
  | drive
  | pickup (request : RequestId)
  | dropoff (request : RequestId)
  /-- Charging, which is given up when no plug is free. -/
  | charge (charger : ChargerId) (plugged : Bool)
  deriving DecidableEq, Repr

namespace Activity

/-- What a task of a kind is about, with a plug if it needs one. -/
def ofKind {R : Type} : TaskKind R → Activity
  | .stay _ => stay
  | .drive _ => drive
  | .pickup request => pickup request
  | .dropoff request => dropoff request
  | .charge charger => charge charger true

/-- The request that a pickup or a dropoff serves. -/
def request? : Activity → Option RequestId
  | pickup request => some request
  | dropoff request => some request
  | _ => none

end Activity

/-- The start or the end of a task. -/
structure TaskEvent (R : Type) where
  /-- The vehicle. -/
  vehicle : VehicleId
  /-- The index of the task in the vehicle's schedule. -/
  index : Nat
  /-- Which end of the task it is. -/
  phase : TaskPhase
  /-- What the task is about. -/
  activity : Activity
  /-- When the task starts or ends in the schedule. -/
  time : Time
  /-- The change of charge that the battery made, when a task that accounts for energy ends. -/
  energy : Option R := none
  deriving BEq, DecidableEq, Repr

/-- What can go wrong when schedules are executed. -/
inductive ExecutionError (R : Type) where
  /-- There are not as many movements as vehicles. -/
  | mismatch (movements vehicles : Nat)
  | fleet (cause : FleetError R)
  | energy (cause : EnergyError R)
  deriving Repr

/-- The wording of an execution error. -/
def ExecutionError.message : ExecutionError Float → String
  | .mismatch movements vehicles =>
    "movement store tracks " ++ Decimal.ofNat movements ++ " vehicle(s), fleet has " ++
      Decimal.ofNat vehicles
  | .fleet cause => cause.message
  | .energy cause => cause.message

end DemandTransport
