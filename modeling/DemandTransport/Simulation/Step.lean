import DemandTransport.Simulation.Basic

/-!
# Stepping through a run

At each step the requests that have become due are registered, the schedules are brought up to the
present, boarding and alighting are noted in the registry, and, at some of the steps, requests are
dispatched and vehicles are sent to charge. Between steps requests can be submitted and withdrawn. A
failure leaves what was done before it.
-/

namespace DemandTransport.Simulation

variable {R : Type} [Scalar R]

/-! ## Requests -/

/-- Change the counts. -/
def count (change : RunStats R → RunStats R) : Action (SimulationError R) (Simulation R) Unit :=
  modify fun sim => { sim with stats := change sim.stats }

/-- An action on the requests. -/
def onRequests (action : Action DemandError Registry Unit) :
    Action (SimulationError R) (Simulation R) Unit :=
  (Action.within Simulation.requests (fun requests sim => { sim with requests := requests })
    action).mapError .demand

/-- Register a request. -/
def release (request : Request) : Action (SimulationError R) (Simulation R) Unit := do
  onRequests (Registry.InPlace.submit request)
  count fun stats => { stats with submitted := stats.submitted + 1 }

/-- Put a request in its place among those to come, behind those of the same instant. -/
def enqueue (request : Request) (arrivals : List Request) : List Request :=
  let noLater (r : Request) : Bool := r.submitted ≤ request.submitted
  arrivals.takeWhile noLater ++ request :: arrivals.dropWhile noLater

/-- Submit a request. It is registered at once when it is due, otherwise when the clock reaches its
submission. -/
def submit (request : Request) : Action (SimulationError R) (Simulation R) Unit := do
  Action.ask fun sim => (Scenario.checkRequest sim.network request).mapError .network
  let sim ← get
  if request.submitted ≤ sim.now then release request
  else set { sim with arrivals := enqueue request sim.arrivals }

/-- Take a request back out of the schedule of its vehicle. -/
def retract (vehicle : VehicleId) (request : RequestId) :
    Action (SimulationError R) (Simulation R) Unit := fun sim =>
  match sim.vehicle vehicle with
  | .error e => .error e sim
  | .ok v =>
    let replace (v : Vehicle R) : Simulation R := { sim with fleet := sim.fleet.set vehicle v }
    match Vehicle.retract request v with
    | .ok _ v => .ok () (replace v)
    | .error cause v => .error (.dispatch cause) (replace v)

/-- Withdraw a request whose passenger has not begun to board. If it is planned, it is first taken
out of the schedule of its vehicle. -/
def withdraw (id : RequestId) (why : String) : Action (SimulationError R) (Simulation R) Unit := do
  let entry ← Action.ask fun sim => sim.entry id
  match entry.status, entry.vehicle with
  | .unplanned, _ => pure ()
  | .planned, some vehicle => retract vehicle id
  | status, _ => throw (.demand (.invalidTransition id status .withdraw))
  let sim ← get
  onRequests (Registry.InPlace.markCancelled id (.withdrawn why) sim.now)
  count fun stats => { stats with cancelled := stats.cancelled + 1 }

/-! ## The phases of a step -/

/-- Register those of the requests to come that are due. -/
def releaseDue (now : Time) : List Request → Action (SimulationError R) (Simulation R) Unit
  | [] => modify fun sim => { sim with arrivals := [] }
  | request :: rest => do
    if request.submitted ≤ now then
      modify fun sim => { sim with arrivals := rest }
      release request
      releaseDue now rest
    else modify fun sim => { sim with arrivals := request :: rest }

/-- Bring all schedules up to an instant. -/
def execute (now : Time) : Action (SimulationError R) (Simulation R) (List (TaskEvent R)) :=
  (Action.within (fun sim => (⟨sim.fleet, sim.movements, sim.chargers⟩ : FleetState R))
    (fun state sim =>
      { sim with fleet := state.fleet, movements := state.movements, chargers := state.chargers })
    (FleetState.advance now)).mapError .execution

/-- What an event changes in the registry. -/
def registryChange (event : TaskEvent R) (requests : Registry) : Except DemandError Registry :=
  match event.phase, event.activity with
  | .ended, .pickup request => requests.markPickedUp request event.time
  | .ended, .dropoff request => requests.markPerformed request event.time
  | _, _ => .ok requests

/-- Note an event in the registry. -/
def noteEvent (event : TaskEvent R) : Action DemandError Registry Unit :=
  match event.phase, event.activity with
  | .ended, .pickup request => Registry.InPlace.markPickedUp request event.time
  | .ended, .dropoff request => Registry.InPlace.markPerformed request event.time
  | _, _ => pure ()

/-- Note events in the registry and in the counts, in order. -/
def apply : List (TaskEvent R) → Action (SimulationError R) (Simulation R) Unit
  | [] => pure ()
  | event :: rest => do
    onRequests (noteEvent event)
    count fun stats => stats.recordEvent event
    apply rest

/-- An action on vehicles and requests. -/
def onOperation {α : Type} (action : Action (DispatchError R) (Operation R) α) :
    Action (SimulationError R) (Simulation R) α :=
  Action.mapError .dispatch <|
    Action.within (fun sim => (⟨sim.fleet, sim.requests⟩ : Operation R))
      (fun op sim => { sim with fleet := op.fleet, requests := op.requests }) action

/-- Run a dispatch cycle at the current time and then send vehicles to charge. -/
def dispatchCycle : Action (SimulationError R) (Simulation R) (DispatchReport R) := do
  let sim ← get
  let report ← onOperation (sim.dispatcher.runCycle sim.network sim.router sim.now)
  let charging ← onOperation <| Operation.onFleet <|
    sim.planner.plan sim.network sim.router sim.now sim.chargers
  let report := { report with charging := charging }
  count fun stats => stats.recordDispatch report
  return report

/-- Move the clock to the next step. -/
def tick : Action (SimulationError R) (Simulation R) Unit := do
  modify fun sim => { sim with clock := sim.clock.advance }
  count fun stats => { stats with steps := stats.steps + 1 }

end DemandTransport.Simulation
