import DemandTransport.Action
import DemandTransport.Demand.Request

/-!
# The registry of requests

The registry follows each request from its submission on. Active requests may still change; the
unplanned ones among them wait in the order of their submission. A request that becomes performed or
cancelled moves to the archive, and nothing is ever dropped. A change that the registry refuses
gives no registry; the programs that make it where the registry is kept come last.
-/

namespace DemandTransport

/-- A request with its history. -/
structure RequestEntry where
  /-- The request as it was submitted. -/
  request : Request
  /-- Where it stands. -/
  status : RequestStatus := .unplanned
  /-- The vehicle that was found for it. -/
  vehicle : Option VehicleId := none
  /-- When it was planned that boarding begins. -/
  plannedPickup : Option Time := none
  /-- When it was planned that alighting begins. -/
  plannedDropoff : Option Time := none
  /-- When the passenger had boarded. -/
  pickedUpAt : Option Time := none
  /-- When the passenger had alighted. -/
  droppedOffAt : Option Time := none
  /-- When the request was cancelled. -/
  cancelledAt : Option Time := none
  deriving DecidableEq, Repr

namespace RequestEntry

/-- The identifier of the request. -/
def id (entry : RequestEntry) : RequestId := entry.request.id

/-- Whether the passenger is in the vehicle. -/
def isOnboard (entry : RequestEntry) : Bool :=
  entry.pickedUpAt.isSome && entry.droppedOffAt.isNone

/-- Seconds from the submission until the passenger had boarded. -/
def waitSecs? (entry : RequestEntry) : Option Nat :=
  entry.pickedUpAt.map fun t => t.since entry.request.submitted

end RequestEntry

/-- All requests of a run. -/
structure Registry where
  /-- Requests that may still change. -/
  active : List RequestEntry := []
  /-- The unplanned requests in the order of their submission. -/
  unplanned : List RequestId := []
  /-- Requests that are performed or cancelled. -/
  archive : List RequestEntry := []
  deriving DecidableEq, Repr

namespace Registry

/-- The entry of a request among some entries. -/
def findIn (entries : List RequestEntry) (id : RequestId) : Option RequestEntry :=
  entries.find? (·.id == id)

/-- The entry of a request, wherever it is kept. -/
def find? (registry : Registry) (id : RequestId) : Option RequestEntry :=
  (findIn registry.active id).or (findIn registry.archive id)

/-- The entry of a request. -/
def get (registry : Registry) (id : RequestId) : Except DemandError RequestEntry :=
  match registry.find? id with
  | some entry => .ok entry
  | none => .error (.requestNotFound id)

/-- Where a request stands. -/
def status (registry : Registry) (id : RequestId) : Except DemandError RequestStatus :=
  (registry.get id).map RequestEntry.status

/-- A request as it was submitted. -/
def request (registry : Registry) (id : RequestId) : Except DemandError Request :=
  (registry.get id).map RequestEntry.request

/-- The unplanned requests in the order of their submission. -/
def pending (registry : Registry) : List RequestId := registry.unplanned

/-- Register a new request as unplanned. -/
def submit (registry : Registry) (request : Request) : Except DemandError Registry :=
  if (registry.find? request.id).isSome then .error (.duplicateRequest request.id)
  else
    let accepted : Registry :=
      { registry with
        active := registry.active ++ [{ request := request }]
        unplanned := registry.unplanned ++ [request.id] }
    match request.window with
    | some window =>
      if window.latest < window.earliest then
        .error (.invertedWindow request.id window.earliest window.latest)
      else .ok accepted
    | none => .ok accepted

/-- The entry of a request that may still change. -/
def activeEntry (registry : Registry) (id : RequestId) : Except DemandError RequestEntry :=
  match findIn registry.archive id, findIn registry.active id with
  | some entry, _ => .error (.invalidTransition id entry.status .anything)
  | none, some entry => .ok entry
  | none, none => .error (.requestNotFound id)

/-- The registry with an entry in the place of the active one for the same request. -/
def update (registry : Registry) (entry : RequestEntry) : Registry :=
  { registry with active := registry.active.map fun e => if e.id = entry.id then entry else e }

/-- The registry with a request no longer among the unplanned ones. -/
def unqueue (registry : Registry) (id : RequestId) : Registry :=
  { registry with unplanned := registry.unplanned.filter (· != id) }

/-- The registry with an entry in the archive instead of among the active ones. -/
def retire (registry : Registry) (entry : RequestEntry) : Registry :=
  { registry with
    active := registry.active.filter (·.id != entry.id)
    archive := registry.archive ++ [entry] }

/-- An unplanned request becomes planned, for a vehicle and with times. -/
def markPlanned (registry : Registry) (id : RequestId) (vehicle : VehicleId)
    (pickup dropoff : Time) : Except DemandError Registry := do
  let entry ← registry.activeEntry id
  if entry.status ≠ .unplanned then .error (.invalidTransition id entry.status .plan)
  else
    let planned :=
      { entry with
        status := .planned, vehicle := some vehicle
        plannedPickup := some pickup, plannedDropoff := some dropoff }
    return (registry.update planned).unqueue id

/-- A request that is not final becomes cancelled and is archived. -/
def markCancelled (registry : Registry) (id : RequestId) (reason : CancelReason) (t : Time) :
    Except DemandError Registry := do
  let entry ← registry.activeEntry id
  if entry.status ≠ .unplanned ∧ entry.status ≠ .planned then
    .error (.invalidTransition id entry.status .cancel)
  else
    let cancelled := { entry with status := .cancelled reason, cancelledAt := some t }
    return (registry.unqueue id).retire cancelled

/-- The passenger of a planned request has boarded. -/
def markPickedUp (registry : Registry) (id : RequestId) (t : Time) :
    Except DemandError Registry := do
  let entry ← registry.activeEntry id
  if entry.status ≠ .planned ∨ entry.pickedUpAt.isSome then
    .error (.invalidTransition id entry.status .pickUp)
  else return registry.update { entry with pickedUpAt := some t }

/-- A planned request becomes performed when the passenger has alighted, and is archived. -/
def markPerformed (registry : Registry) (id : RequestId) (t : Time) :
    Except DemandError Registry := do
  let entry ← registry.activeEntry id
  if entry.status ≠ .planned then .error (.invalidTransition id entry.status .perform)
  else return registry.retire { entry with status := .performed, droppedOffAt := some t }

/-- How many requests are unplanned. -/
def unplannedCount (registry : Registry) : Nat := registry.unplanned.length

/-- How many requests are not final. -/
def activeCount (registry : Registry) : Nat := registry.active.length

/-- How many requests are final. -/
def archivedCount (registry : Registry) : Nat := registry.archive.length

/-! ## Changes in place -/

namespace InPlace

/-- Write an entry in the place of the active one for the same request. -/
def write (entry : RequestEntry) : Action DemandError Registry Unit :=
  modify fun registry => registry.update entry

/-- Take a request off the unplanned ones. -/
def unqueue (id : RequestId) : Action DemandError Registry Unit :=
  modify fun registry => registry.unqueue id

/-- Move the active entry of a request to the archive. -/
def retire (id : RequestId) : Action DemandError Registry Unit :=
  modify fun registry =>
    match findIn registry.active id with
    | some entry => registry.retire entry
    | none => registry

/-- Enter a request as an active and unplanned one. -/
def enter (request : Request) : Action DemandError Registry Unit := do
  modify fun registry => { registry with active := registry.active ++ [{ request := request }] }
  modify fun registry => { registry with unplanned := registry.unplanned ++ [request.id] }

/-- Register a new request as unplanned. -/
def submit (request : Request) : Action DemandError Registry Unit := do
  let registry ← getThe Registry
  if (registry.find? request.id).isSome then throw (.duplicateRequest request.id)
  else
    match request.window with
    | some window =>
      if window.latest < window.earliest then
        throw (.invertedWindow request.id window.earliest window.latest)
      else enter request
    | none => enter request

/-- An unplanned request becomes planned, for a vehicle and with times. -/
def markPlanned (id : RequestId) (vehicle : VehicleId) (pickup dropoff : Time) :
    Action DemandError Registry Unit := do
  let entry ← Action.ask fun registry => registry.activeEntry id
  if entry.status ≠ .unplanned then throw (.invalidTransition id entry.status .plan)
  else
    write
      { entry with
        status := .planned, vehicle := some vehicle
        plannedPickup := some pickup, plannedDropoff := some dropoff }
    unqueue id

/-- A request that is not final becomes cancelled and is archived. -/
def markCancelled (id : RequestId) (reason : CancelReason) (t : Time) :
    Action DemandError Registry Unit := do
  let entry ← Action.ask fun registry => registry.activeEntry id
  if entry.status ≠ .unplanned ∧ entry.status ≠ .planned then
    throw (.invalidTransition id entry.status .cancel)
  else
    write { entry with status := .cancelled reason, cancelledAt := some t }
    unqueue id
    retire id

/-- The passenger of a planned request has boarded. -/
def markPickedUp (id : RequestId) (t : Time) : Action DemandError Registry Unit := do
  let entry ← Action.ask fun registry => registry.activeEntry id
  if entry.status ≠ .planned ∨ entry.pickedUpAt.isSome then
    throw (.invalidTransition id entry.status .pickUp)
  else write { entry with pickedUpAt := some t }

/-- A planned request becomes performed when the passenger has alighted, and is archived. -/
def markPerformed (id : RequestId) (t : Time) : Action DemandError Registry Unit := do
  let entry ← Action.ask fun registry => registry.activeEntry id
  if entry.status ≠ .planned then throw (.invalidTransition id entry.status .perform)
  else
    write { entry with status := .performed, droppedOffAt := some t }
    retire id

end InPlace

end Registry

end DemandTransport
