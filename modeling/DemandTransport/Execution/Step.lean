import DemandTransport.Action
import DemandTransport.Energy.Chargers
import DemandTransport.Execution.Event
import DemandTransport.Execution.Movement

/-!
# Executing schedules

Vehicles carry out their schedules exactly as planned. To bring a vehicle up to an instant, every
task that should have started by then is started and every one that should have ended is ended, in
the order of the schedule. A vehicle that charges takes a plug when it starts; when no plug is free,
the task keeps its place and its energy is given up.
-/

namespace DemandTransport

variable {R : Type} [Scalar R]

/-- The first of some tasks that is not over, with its index; the first task has the given one. -/
def firstOpenFrom? : Nat → List (Task R) → Option (Nat × Task R)
  | _, [] => none
  | index, task :: rest =>
    if task.status = .performed then firstOpenFrom? (index + 1) rest else some (index, task)

/-- The first task of a schedule that is not over, with its index. -/
def Schedule.firstOpen? (s : Schedule R) : Option (Nat × Task R) := firstOpenFrom? 0 s.tasks

/-! ## One vehicle -/

/-- A vehicle with everything that its execution changes. -/
structure VehicleState (R : Type) where
  /-- The vehicle. -/
  vehicle : Vehicle R
  /-- Where it is. -/
  movement : Movement
  /-- The chargers of the run. -/
  chargers : ChargerPool R

namespace VehicleState

/-- Advance the task at an index. The change that the battery made is returned. -/
def advanceTask (index : Nat) (status : TaskStatus) (t : Time) :
    Action (ExecutionError R) (VehicleState R) (Option R) :=
  (Action.within VehicleState.vehicle (fun vehicle state => { state with vehicle := vehicle })
    (Vehicle.InPlace.advanceTask index status t)).mapError .fleet

/-- Change the place of the vehicle. -/
def moveTo (movement : Movement) : Action (ExecutionError R) (VehicleState R) Unit :=
  modify fun state => { state with movement := movement }

/-- Give up the energy of the task at an index. -/
def forfeit (index : Nat) : Action (ExecutionError R) (VehicleState R) Unit :=
  (Action.within VehicleState.vehicle (fun vehicle state => { state with vehicle := vehicle })
    (Vehicle.InPlace.forfeitEnergy index)).mapError .fleet

/-- Take a plug of a charger for the task at an index, whose energy is given up when there is none.
Whether a plug was taken is returned. -/
def plugIn (index : Nat) (charger : ChargerId) :
    Action (ExecutionError R) (VehicleState R) Bool := do
  let state ← get
  match state.chargers.occupy charger state.vehicle.id with
  | .ok chargers =>
    set { state with chargers := chargers }
    return true
  | .error (.chargerFull _ _ _) =>
    forfeit index
    return false
  | .error cause => throw (.energy cause)

/-- Give back the plug of a charger. Whether the vehicle had one is returned. -/
def unplug (charger : ChargerId) : Action (ExecutionError R) (VehicleState R) Bool := do
  let state ← get
  match state.chargers.release charger state.vehicle.id with
  | .ok (held, chargers) =>
    set { state with chargers := chargers }
    return held
  | .error cause => throw (.energy cause)

/-- Start the task at an index. -/
def startTask (index : Nat) (task : Task R) :
    Action (ExecutionError R) (VehicleState R) (TaskEvent R) := do
  let state ← get
  let _ ← advanceTask index .started task.start
  let activity ←
    match task.kind with
    | .charge charger => do
      let plugged ← plugIn index charger
      pure (Activity.charge charger plugged)
    | kind => pure (Activity.ofKind kind)
  match task.kind with
  | .drive route => moveTo (.driving route)
  | _ => moveTo (.stationary task.source task.start)
  return ⟨state.vehicle.id, index, .started, activity, task.start, none⟩

/-- End the task at an index. -/
def endTask (index : Nat) (task : Task R) :
    Action (ExecutionError R) (VehicleState R) (TaskEvent R) := do
  let state ← get
  let energy ← advanceTask index .performed task.finish
  let activity ←
    match task.kind with
    | .charge charger => do
      let held ← unplug charger
      pure (Activity.charge charger held)
    | kind => pure (Activity.ofKind kind)
  if task.kind.isDrive then moveTo (.stationary task.target task.finish)
  return ⟨state.vehicle.id, index, .ended, activity, task.finish, energy⟩

/-- Start or end the first task that is not over, if that is due. -/
def advanceOnce (now : Time) :
    Action (ExecutionError R) (VehicleState R) (Option (TaskEvent R)) := do
  let state ← get
  match state.vehicle.schedule.firstOpen? with
  | none => return none
  | some (index, task) =>
    if task.status = .planned ∧ task.start ≤ now then some <$> startTask index task
    else if task.status = .started ∧ task.finish ≤ now then some <$> endTask index task
    else return none

/-- Start and end tasks until nothing is due or `bound` events have happened. -/
def advanceUpTo (now : Time) : Nat → Action (ExecutionError R) (VehicleState R) (List (TaskEvent R))
  | 0 => pure []
  | bound + 1 => do
    match ← advanceOnce now with
    | none => return []
    | some event =>
      let later ← advanceUpTo now bound
      return event :: later

/-- Bring the vehicle up to an instant; the events come in the order of the schedule. Each task
gives at most two of them. -/
def advance (now : Time) : Action (ExecutionError R) (VehicleState R) (List (TaskEvent R)) := do
  let state ← get
  advanceUpTo now (2 * state.vehicle.schedule.tasks.length)

end VehicleState

/-! ## The fleet -/

/-- The vehicles of a run with everything that their execution changes. -/
structure FleetState (R : Type) where
  /-- The vehicles. -/
  fleet : Fleet R
  /-- Where each vehicle is. -/
  movements : List Movement
  /-- The chargers. -/
  chargers : ChargerPool R

namespace FleetState

/-- Bring some vehicles up to an instant, one after the other. Every vehicle is brought there even
if another one fails; each one's events or failure are kept apart. -/
def advanceEach (now : Time) :
    List (Vehicle R × Movement) → ChargerPool R →
      List (Except (ExecutionError R) (List (TaskEvent R))) × List (Vehicle R × Movement) ×
        ChargerPool R
  | [], chargers => ([], [], chargers)
  | (vehicle, movement) :: rest, chargers =>
    let (outcome, state) := (VehicleState.advance now).outcome ⟨vehicle, movement, chargers⟩
    let (outcomes, others, chargers) := advanceEach now rest state.chargers
    (outcome :: outcomes, (state.vehicle, state.movement) :: others, chargers)

/-- Bring all vehicles up to an instant. The events come in the order of the vehicles; when vehicles
fail, the failure of the first one is that of the whole. -/
def advance (now : Time) : Action (ExecutionError R) (FleetState R) (List (TaskEvent R)) := do
  let state ← get
  if state.movements.length ≠ state.fleet.size then
    throw (.mismatch state.movements.length state.fleet.size)
  let (outcomes, vehicles, chargers) :=
    advanceEach now (state.fleet.vehicles.zip state.movements) state.chargers
  set (⟨⟨vehicles.map Prod.fst⟩, vehicles.map Prod.snd, chargers⟩ : FleetState R)
  match outcomes.mapM id with
  | .ok events => return events.flatten
  | .error e => throw e

end FleetState

end DemandTransport
