import DemandTransport.Action
import DemandTransport.Dispatch.Projection
import DemandTransport.Dispatch.Report

/-!
# Giving a request to a vehicle

New work goes to the end of a schedule: it is carved from the vehicle's trailing idle time, from the
moment on at which the vehicle is available. Tasks that are already in the schedule do not move. A
request can be taken back as long as its pickup has not begun.
-/

namespace DemandTransport

variable {R : Type} [Scalar R]

/-- Idle time that is open for new work. -/
structure Slot where
  /-- Where the vehicle is. -/
  node : NodeId
  /-- When work may begin. -/
  depart : Time
  /-- When work has to be done. -/
  limit : Time
  deriving DecidableEq, Repr

/-- The idle time of a vehicle that is open for new work. Idle time that has been begun can only be
cut after its begin, so work in it begins a second later. -/
def Vehicle.openSlot? (vehicle : Vehicle R) (now : Time) : Option Slot :=
  match vehicle.schedule.trailingStay? with
  | none => none
  | some (_, stay) =>
    let (node, ready) := vehicle.available now
    let depart :=
      if stay.status = .started ∧ ready = stay.start then ready.offset 1 else ready
    if stay.status = .performed then none
    else if depart < stay.finish then some ⟨node, depart, stay.finish⟩
    else none

/-- What an evaluation looks at besides the vehicle and the request. -/
structure DispatchContext (R : Type) where
  /-- The road network. -/
  network : Network R
  /-- How routes are found. -/
  router : Router R
  /-- The settings. -/
  config : DispatchConfig
  /-- The present. -/
  now : Time

/-- The route of one leg, if there is one. A route that takes a link takes at least a second, so
that its drive is not empty. -/
def routeLeg? (network : Network R) (router : Router R) (source target : NodeId)
    (departure : Time) : Option (Route R) :=
  match router network source target departure with
  | .ok route =>
    if !route.isTrivial ∧ route.arrival ≤ route.departure then
      some { route with arrival := route.departure.offset 1 }
    else some route
  | .error _ => none

/-- The drive along a route, if the route takes a link. -/
def Route.drives (route : Route R) : List (Task R) :=
  if route.isTrivial then [] else [Task.drive route]

/-- A way to serve a request with a vehicle. -/
structure Insertion (R : Type) where
  /-- The vehicle. -/
  vehicle : VehicleId
  /-- Where in time the new tasks begin. -/
  depart : Time
  /-- The new tasks: a drive, idle time, the pickup, a drive and the dropoff, without drives that
  take no link and without idle time that is not needed. -/
  tasks : List (Task R)
  /-- When boarding begins. -/
  pickupAt : Time
  /-- When alighting begins. -/
  dropoffAt : Time
  /-- The cost. -/
  cost : R
  deriving BEq, DecidableEq, Repr

/-- The idle time until boarding, and when boarding begins, for a vehicle that arrives at the origin
at a time. -/
def Request.boarding (request : Request) (arrival : Time) :
    Except (RejectionReason R) (List (Task R) × Time) :=
  match request.window with
  | none => .ok ([], arrival)
  | some window =>
    if window.latest < arrival then .error (.outsideWindow arrival window.latest)
    else if arrival < window.earliest then
      .ok ([Task.stay request.origin arrival window.earliest], window.earliest)
    else .ok ([], arrival)

/-- The tasks with the energy that they take from an electric vehicle, provided that its battery
does not run empty. -/
def Vehicle.powered (vehicle : Vehicle R) (depart : Time) (tasks : List (Task R)) :
    Except (RejectionReason R) (List (Task R)) :=
  match vehicle.profile? with
  | none => .ok tasks
  | some profile =>
    let tasks := tasks.map fun task => task.withEnergy (profile.taskEnergy task)
    match vehicle.project? depart tasks with
    | some projection =>
      if projection.isFeasible then .ok tasks
      else .error (.energyInfeasible projection.least)
    | none => .ok tasks

/-- A leg of a trip, without which the request cannot be served. -/
def DispatchContext.leg (ctx : DispatchContext R) (source target : NodeId) (departure : Time) :
    Except (RejectionReason R) (Route R) :=
  match routeLeg? ctx.network ctx.router source target departure with
  | some route => .ok route
  | none => .error .noPath

/-- How a vehicle can serve a request and at what cost, or why it cannot. -/
def Vehicle.evaluate (ctx : DispatchContext R) (vehicle : Vehicle R) (request : Request) :
    Except (RejectionReason R) (Insertion R) := do
  if vehicle.seats = 0 then throw .noSeats
  let slot ←
    match vehicle.openSlot? ctx.now with
    | some slot => pure slot
    | none => throw .unavailable
  let approach ← ctx.leg slot.node request.origin slot.depart
  let (wait, pickupAt) ← request.boarding approach.arrival
  let pickupEnd := pickupAt.offset ctx.config.pickupSecs
  let ride ← ctx.leg request.origin request.destination pickupEnd
  let dropoffAt := ride.arrival
  let dropoffEnd := dropoffAt.offset ctx.config.dropoffSecs
  if slot.limit < dropoffEnd then throw (.beyondHorizon dropoffEnd slot.limit)
  let pickup := Task.pickup request.id request.origin pickupAt pickupEnd
  let dropoff := Task.dropoff request.id request.destination dropoffAt dropoffEnd
  let tasks ← vehicle.powered slot.depart
    (approach.drives ++ wait ++ [pickup] ++ ride.drives ++ [dropoff])
  let cost := ctx.config.cost.evaluate
    { now := ctx.now, pickupAt := pickupAt
      driveSecs := approach.travelSecs + ride.travelSecs
      driveLength := approach.length + ride.length }
  return ⟨vehicle.id, slot.depart, tasks, pickupAt, dropoffAt, cost⟩

namespace Schedule

/-- Insert tasks one behind the other from an index on. -/
def insertFrom : Nat → List (Task R) → Action ScheduleError (Schedule R) Unit
  | _, [] => pure ()
  | index, task :: rest => do
    let _ ← InPlace.insert task index
    insertFrom (index + 1) rest

/-- Carve tasks, one behind the other, from the idle time open at an instant. -/
def insertAt (depart : Time) (tasks : List (Task R)) : Action ScheduleError (Schedule R) Unit := do
  let index ← InPlace.insertionPoint depart
  insertFrom index tasks

end Schedule

namespace Vehicle

/-- Write tasks into a vehicle's schedule from an instant on. -/
def insertAt (depart : Time) (tasks : List (Task R)) :
    Action (DispatchError R) (Vehicle R) Unit := do
  let vehicle ← get
  (onSchedule (Schedule.insertAt depart tasks)).mapError (.invalidInsertion vehicle.id)

/-- Write an insertion into a vehicle's schedule, against which it has been evaluated. -/
def commit (insertion : Insertion R) : Action (DispatchError R) (Vehicle R) Unit :=
  insertAt insertion.depart insertion.tasks

/-- Whether a task only brings a vehicle to its next work and has not begun. -/
def isApproach (task : Task R) : Bool :=
  (task.isStay || task.kind.isDrive) && task.status == .planned

/-- Where the tasks that only bring a vehicle to the work at an index begin. -/
def approachStart (tasks : List (Task R)) : Nat → Nat
  | 0 => 0
  | index + 1 => if tasks[index]?.any isApproach then approachStart tasks index else index + 1

/-- Whether a task lets the passenger of a request board. -/
def isPickupOf (request : RequestId) (task : Task R) : Bool :=
  match task.kind with
  | .pickup r => r == request
  | _ => false

/-- Whether a task lets the passenger of a request alight. -/
def isDropoffOf (request : RequestId) (task : Task R) : Bool :=
  match task.kind with
  | .dropoff r => r == request
  | _ => false

/-- The indices of pickup and dropoff of a request, provided that the pickup has not begun. -/
def tripOf (vehicle : Vehicle R) (request : RequestId) : Except RetractFault (Nat × Nat) :=
  let tasks := vehicle.schedule.tasks
  match tasks.findIdx? (isPickupOf request), tasks.findIdx? (isDropoffOf request) with
  | some pickup, some dropoff =>
    match tasks[pickup]? with
    | some task =>
      if task.status = .planned then .ok (pickup, dropoff) else .error (.pickupBegun task.status)
    | none => .error .notScheduled
  | _, _ => .error .notScheduled

/-- Take the trip between two indices out of a schedule. When only idle time follows, everything
from the end of the work before becomes idle time; otherwise later work begins where the trip ends,
so the drives stay and only pickup and dropoff become idle time. -/
def removeTrip (pickup dropoff : Nat) : Action ScheduleError (Vehicle R) Unit := do
  let vehicle ← get
  let tasks := vehicle.schedule.tasks
  if (tasks.drop (dropoff + 1)).all Task.isStay then
    let first := approachStart tasks pickup
    let idleStart := (tasks[first]?.map Task.start).getD .zero
    let energy := vehicle.profile?.map fun profile =>
      profile.idleEnergy (vehicle.schedule.finish.since idleStart)
    onSchedule (Schedule.InPlace.retractFrom first energy)
  else
    onSchedule (Schedule.InPlace.vacate pickup)
    onSchedule (Schedule.InPlace.vacate dropoff)

/-- Take a planned request back out of a vehicle's schedule. -/
def retract (request : RequestId) : Action (DispatchError R) (Vehicle R) Unit := do
  let vehicle ← get
  match vehicle.tripOf request with
  | .error fault => throw (.cannotRetract request vehicle.id fault)
  | .ok (pickup, dropoff) =>
    (removeTrip pickup dropoff).mapError fun cause =>
      .cannotRetract request vehicle.id (.refused cause)

end Vehicle

end DemandTransport
