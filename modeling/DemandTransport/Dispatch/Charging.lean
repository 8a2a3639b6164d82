import DemandTransport.Clock
import DemandTransport.Dispatch.Cycle
import DemandTransport.Energy.Chargers

/-!
# Sending vehicles to charge

An idle electric vehicle whose battery is low is sent to the charger at which it can begin soonest,
provided that a plug will be free for the whole session. Plugs are booked by the charging tasks that
are already in the schedules. Vehicles plug in and out at the steps of a grid only, so a session
holds its plug at every step from the first one at or after its begin to the first one at or after
its end, both included.
-/

namespace DemandTransport

/-- The times at which schedules are executed: every `stepSecs` seconds from `origin` on. -/
structure StepGrid where
  /-- The first step. -/
  origin : Time := .zero
  /-- Seconds between two steps. -/
  stepSecs : Nat := 1
  deriving DecidableEq, Repr

namespace StepGrid

/-- The first step at or after an instant. -/
def snap (grid : StepGrid) (t : Time) : Time :=
  let step := max grid.stepSecs 1
  grid.origin.offset (ceilDiv (t.since grid.origin) step * step)

end StepGrid

/-- A plug held at a charger from one step to another, both included. -/
structure Booking where
  /-- The charger. -/
  charger : ChargerId
  /-- The first step. -/
  first : Time
  /-- The last step. -/
  last : Time
  deriving DecidableEq, Repr

namespace Booking

/-- The booking of a session. -/
def ofSession (grid : StepGrid) (charger : ChargerId) (start finish : Time) : Booking :=
  ⟨charger, grid.snap start, grid.snap finish⟩

/-- Whether two bookings hold plugs of one charger at one step. -/
def overlaps (a b : Booking) : Bool :=
  a.charger == b.charger && a.first ≤ b.last && b.first ≤ a.last

/-- The booking of a task, if it charges. -/
def ofTask? {R : Type} (grid : StepGrid) (task : Task R) : Option Booking :=
  match task.kind with
  | .charge charger => some (ofSession grid charger task.start task.finish)
  | _ => none

/-- The bookings of all tasks of a fleet that are not over. -/
def ofFleet {R : Type} (grid : StepGrid) (fleet : Fleet R) : List Booking :=
  fleet.vehicles.flatMap fun v =>
    v.schedule.unperformed.filterMap fun entry => ofTask? grid entry.2

end Booking

/-- A charging session for a vehicle. -/
structure Session (R : Type) where
  /-- Where in time its tasks begin. -/
  depart : Time
  /-- A drive to the charger, unless the vehicle is there, and the charging. -/
  tasks : List (Task R)
  /-- What is reported of it. -/
  assignment : ChargingAssignment R
  deriving BEq, DecidableEq, Repr

/-- The settings of a charging planner. -/
structure ChargingPlanner (R : Type) where
  /-- When to charge and for how long. -/
  policy : ChargingPolicy R
  /-- The steps at which schedules are executed. -/
  grid : StepGrid := {}

namespace ChargingPlanner

variable {R : Type} [Scalar R]

/-- A planner on the grid of all seconds, provided that its policy is sound. -/
def make (policy : ChargingPolicy R) : Except (DispatchError R) (ChargingPlanner R) := do
  policy.validate
  return { policy := policy }

/-- The planner on another grid. -/
def onGrid (planner : ChargingPlanner R) (origin : Time) (stepSecs : Nat) : ChargingPlanner R :=
  { planner with grid := ⟨origin, stepSecs⟩ }

/-- Whether a charger has a plug that no booking takes while another one lasts. -/
def hasRoom (bookings : List Booking) (plugs : Nat) (booking : Booking) : Bool :=
  (bookings.filter fun b => b.overlaps booking).length < plugs

/-- The session of a vehicle at a charger to which a route leads: from the arrival until the battery
is charged to its target or the idle time ends. -/
def session? (planner : ChargingPlanner R) (vehicle : Vehicle R) (profile : EnergyProfile R)
    (slot : Slot) (charge : R) (charger : Charger R) (route : Route R) : Option (Session R) :=
  let driveEnergy := profile.driveEnergy route.length
  let onArrival := charge + driveEnergy
  if 0 ≤ onArrival then
    let start := route.arrival
    let wanted := profile.chargeSecsTo onArrival charger.power planner.policy.targetSoc
    let finish := min (start.offset wanted) slot.limit
    if finish ≤ start then none
    else
      let gain := profile.chargeEnergy onArrival charger.power (finish.since start)
      let tasks := route.drives.map (fun task => task.withEnergy driveEnergy) ++
        [(Task.charge charger.id charger.node start finish).withEnergy gain]
      if (vehicle.project? slot.depart tasks).any Projection.isFeasible then
        some ⟨slot.depart, tasks, ⟨vehicle.id, charger.id, start, finish, gain⟩⟩
      else none
  else none

/-- Whether a session begins before another one, or with it at a charger of lower number. -/
def sooner (a b : Session R) : Bool :=
  a.assignment.start < b.assignment.start ||
    (a.assignment.start == b.assignment.start && a.assignment.charger < b.assignment.charger)

/-- The session to be preferred among some. -/
def soonest : List (Session R) → Option (Session R) :=
  List.foldl (fun best session =>
    match best with
    | none => some session
    | some b => if sooner session b then some session else best) none

/-- The sessions that chargers offer to a vehicle in an open slot, those without a free plug left
out. -/
def offers (planner : ChargingPlanner R) (network : Network R) (router : Router R)
    (pool : ChargerPool R) (bookings : List Booking) (vehicle : Vehicle R)
    (profile : EnergyProfile R) (slot : Slot) (charge : R) : List (Session R) :=
  pool.chargers.filterMap fun charger => do
    let route ← routeLeg? network router slot.node charger.node slot.depart
    let session ← planner.session? vehicle profile slot charge charger route
    let a := session.assignment
    if hasRoom bookings charger.plugs (.ofSession planner.grid charger.id a.start a.finish) then
      return session
    else none

/-- The session for a vehicle, if it is idle, its battery will be low and a charger can take it. -/
def sessionFor? (planner : ChargingPlanner R) (network : Network R) (router : Router R)
    (now : Time) (pool : ChargerPool R) (bookings : List Booking) (vehicle : Vehicle R) :
    Option (Session R) := do
  let profile ← vehicle.profile?
  let (_, stay) ← vehicle.schedule.trailingStay?
  if now < stay.start then none
  else
    let slot ← vehicle.openSlot? now
    let projection ← vehicle.project? slot.depart []
    let charge := projection.afterTasks
    if planner.policy.minSoc ≤ charge / profile.capacity then none
    else soonest (planner.offers network router pool bookings vehicle profile slot charge)

/-- Plan sessions for some vehicles, one after the other; each is booked before the next vehicle is
looked at. -/
def planFor (planner : ChargingPlanner R) (network : Network R) (router : Router R) (now : Time)
    (pool : ChargerPool R) :
    List Booking → List VehicleId →
      Action (DispatchError R) (Fleet R) (List (ChargingAssignment R))
  | _, [] => pure []
  | bookings, id :: rest => do
    let vehicle ← (Action.ask fun fleet => fleet.get id).mapError DispatchError.fleet
    match planner.sessionFor? network router now pool bookings vehicle with
    | none => planFor planner network router now pool bookings rest
    | some session =>
      let a := session.assignment
      let booking := Booking.ofSession planner.grid a.charger a.start a.finish
      Operation.onVehicle id (Vehicle.insertAt session.depart session.tasks)
      let others ← planFor planner network router now pool (bookings ++ [booking]) rest
      return a :: others

/-- Plan a session for each idle electric vehicle whose battery will be low, in ascending order. -/
def plan (planner : ChargingPlanner R) (network : Network R) (router : Router R) (now : Time)
    (pool : ChargerPool R) :
    Action (DispatchError R) (Fleet R) (List (ChargingAssignment R)) := do
  if pool.isEmpty then return []
  else
    let fleet ← get
    planFor planner network router now pool (Booking.ofFleet planner.grid fleet)
      (fleet.vehiclesOf Vehicle.isElectric)

end ChargingPlanner

end DemandTransport
