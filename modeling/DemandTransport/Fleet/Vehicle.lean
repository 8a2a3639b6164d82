import DemandTransport.Energy.Profile
import DemandTransport.Schedule.InPlace

/-!
# Vehicles

A vehicle works over a horizon with a number of seats and follows its schedule. An electric vehicle
also has a battery, and every task in its schedule accounts for the energy it takes or gives.
-/

namespace DemandTransport

/-- What a vehicle row can lack or get wrong. -/
inductive VehicleFault (R : Type) where
  /-- An electric vehicle without a datum that it needs. -/
  | missing (what : String)
  /-- The battery is not charged to a share of its capacity. -/
  | share (soc : R)
  deriving DecidableEq, Repr

/-- What can go wrong with a fleet. -/
inductive FleetError (R : Type) where
  | vehicleNotFound (vehicle : VehicleId)
  /-- The identifiers of a fleet do not count up from zero. -/
  | nonDenseIds (expected found : VehicleId)
  | invalidVehicle (vehicle : VehicleId) (fault : VehicleFault R)
  | schedule (vehicle : VehicleId) (cause : ScheduleError)
  | energy (cause : EnergyError R)
  | network (cause : NetworkError)
  /-- A file cannot be read, for the given reason. -/
  | unreadable (reason : String)
  | table (fault : Table.TableFault)
  deriving Repr

/-- The wording of a vehicle fault. -/
def VehicleFault.message : VehicleFault Float → String
  | .missing what => "electric vehicle without " ++ what
  | .share soc => "initial_soc " ++ Decimal.shortest soc ++ " outside [0, 1]"

/-- The wording of a fleet error. -/
def FleetError.message : FleetError Float → String
  | .vehicleNotFound vehicle => "vehicle " ++ vehicle.text ++ " not found"
  | .nonDenseIds expected found =>
    "vehicle ids must be dense: expected " ++ expected.text ++ ", found " ++ found.text
  | .invalidVehicle vehicle fault => "invalid vehicle " ++ vehicle.text ++ ": " ++ fault.message
  | .schedule vehicle cause => "vehicle " ++ vehicle.text ++ ": " ++ cause.message
  | .energy cause => cause.message
  | .network cause => cause.message
  | .unreadable reason => "I/O error: " ++ reason
  | .table fault => "fleet parse error: " ++ fault.message

/-- The battery of an electric vehicle and the model it belongs to. -/
structure VehicleEnergy (R : Type) where
  /-- The characteristics of the model. -/
  profile : EnergyProfile R
  /-- The battery. -/
  battery : Battery R
  deriving BEq, DecidableEq, Repr

/-- A vehicle of the fleet. -/
structure Vehicle (R : Type) where
  /-- The vehicle's identifier. -/
  id : VehicleId
  /-- Where its horizon begins. -/
  startNode : NodeId
  /-- When its horizon begins. -/
  start : Time
  /-- When its horizon ends; this instant no longer belongs to it. -/
  finish : Time
  /-- Seats for passengers. -/
  seats : Nat
  /-- The battery of an electric vehicle. -/
  energy : Option (VehicleEnergy R)
  /-- What the vehicle does. -/
  schedule : Schedule R
  deriving BEq, DecidableEq, Repr

namespace Vehicle

variable {R : Type} [Scalar R]

/-- A vehicle without a battery that is idle for its whole horizon. -/
def conventional (id : VehicleId) (node : NodeId) (start finish : Time) (seats : Nat) :
    Except (FleetError R) (Vehicle R) :=
  match Schedule.idle node start finish with
  | .ok schedule => .ok ⟨id, node, start, finish, seats, none, schedule⟩
  | .error cause => .error (.schedule id cause)

/-- An electric vehicle that is idle for its whole horizon. -/
def electric (id : VehicleId) (node : NodeId) (start finish : Time) (seats : Nat)
    (profile : EnergyProfile R) (charge : R) : Except (FleetError R) (Vehicle R) :=
  match Battery.make profile.capacity charge with
  | .error cause => .error (.energy cause)
  | .ok battery =>
    let idle := profile.idleEnergy (finish.since start)
    match Schedule.idleWithEnergy node start finish idle with
    | .ok schedule => .ok ⟨id, node, start, finish, seats, some ⟨profile, battery⟩, schedule⟩
    | .error cause => .error (.schedule id cause)

/-- Whether the vehicle has a battery. -/
def isElectric (vehicle : Vehicle R) : Bool := vehicle.energy.isSome

/-- The characteristics of an electric vehicle's model. -/
def profile? (vehicle : Vehicle R) : Option (EnergyProfile R) :=
  vehicle.energy.map VehicleEnergy.profile

/-- The battery of an electric vehicle. -/
def battery? (vehicle : Vehicle R) : Option (Battery R) :=
  vehicle.energy.map VehicleEnergy.battery

/-- Where and when the vehicle can next begin new work: in its trailing idle time, or else where and
when its last task ends. -/
def available (vehicle : Vehicle R) (now : Time) : NodeId × Time :=
  match vehicle.schedule.trailingStay? with
  | some (_, stay) => (stay.target, max stay.start now)
  | none =>
    match vehicle.schedule.tasks.getLast? with
    | some task => (task.target, task.finish)
    | none => (vehicle.startNode, vehicle.finish)

/-- The task at an index of the schedule. -/
def task (vehicle : Vehicle R) (index : Nat) : Except (FleetError R) (Task R) :=
  (vehicle.schedule.get index).mapError (.schedule vehicle.id)

/-- The vehicle with its charge changed by the energy of a task that has been performed. The first
component is the change that the battery made. -/
def applyEnergy (vehicle : Vehicle R) (task : Task R) : Option R × Vehicle R :=
  match task.energy, vehicle.energy with
  | some kwh, some energy =>
    let (applied, battery) := energy.battery.apply kwh
    (some applied, { vehicle with energy := some { energy with battery := battery } })
  | _, _ => (none, vehicle)

/-- Advance the task at an index. When it has been performed, its energy goes to the battery; the
change that the battery made comes with the new vehicle. -/
def advanceTask (vehicle : Vehicle R) (index : Nat) (status : TaskStatus) (t : Time) :
    Except (FleetError R) (Option R × Vehicle R) :=
  match vehicle.schedule.advance index status t with
  | .error cause => .error (.schedule vehicle.id cause)
  | .ok (task, schedule) =>
    let vehicle := { vehicle with schedule := schedule }
    .ok (if status = .performed then vehicle.applyEnergy task else (none, vehicle))

/-- Give up the energy of a task that is not over. -/
def forfeitEnergy (vehicle : Vehicle R) (index : Nat) : Except (FleetError R) (Vehicle R) :=
  match vehicle.schedule.overrideEnergy index 0.0 with
  | .error cause => .error (.schedule vehicle.id cause)
  | .ok schedule => .ok { vehicle with schedule := schedule }

/-! ## Changes in place -/

/-- An action on the schedule of a vehicle. -/
def onSchedule {ε α : Type} (action : Action ε (Schedule R) α) : Action ε (Vehicle R) α :=
  Action.within Vehicle.schedule (fun schedule vehicle => { vehicle with schedule := schedule })
    action

namespace InPlace

/-- Advance the task at an index, and then charge or discharge the battery if it has been performed.
The change that the battery made is given. -/
def advanceTask (index : Nat) (status : TaskStatus) (t : Time) :
    Action (FleetError R) (Vehicle R) (Option R) := do
  let vehicle ← getThe (Vehicle R)
  let task ← (onSchedule (Schedule.InPlace.advance index status t)).mapError (.schedule vehicle.id)
  if status = .performed then
    let vehicle ← getThe (Vehicle R)
    let (applied, vehicle) := vehicle.applyEnergy task
    set vehicle
    return applied
  else return none

/-- Give up the energy of a task that is not over. -/
def forfeitEnergy (index : Nat) : Action (FleetError R) (Vehicle R) Unit := do
  let vehicle ← getThe (Vehicle R)
  (onSchedule (Schedule.InPlace.overrideEnergy index 0.0)).mapError (.schedule vehicle.id)

end InPlace

end Vehicle

end DemandTransport
