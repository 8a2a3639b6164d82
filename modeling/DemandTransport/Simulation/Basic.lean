import DemandTransport.Dispatch.Charging
import DemandTransport.Execution.Step
import DemandTransport.Simulation.Config
import DemandTransport.Simulation.Stats

/-!
# Simulations

A simulation holds everything that belongs to a run: the clock, the vehicles and where they are, the
requests with those still to come, and the chargers. It is built from a scenario, whose parts have
to fit together.
-/

namespace DemandTransport

/-- What can go wrong in a simulation. -/
inductive SimulationError (R : Type) where
  /-- Steps take no time. -/
  | noStepLength
  /-- The run does not end after its begin. -/
  | emptyRun (start finish : Time)
  | dispatch (cause : DispatchError R)
  | execution (cause : ExecutionError R)
  | demand (cause : DemandError)
  | fleet (cause : FleetError R)
  | energy (cause : EnergyError R)
  | network (cause : NetworkError)
  deriving Repr

/-- The wording of a simulation error. -/
def SimulationError.message : SimulationError Float → String
  | .noStepLength => "simulation configuration error: step_secs must be > 0"
  | .emptyRun start finish =>
    "simulation configuration error: end_time " ++ finish.text ++ " is not after start_time " ++
      start.text
  | .dispatch cause => "dispatch error: " ++ cause.message
  | .execution cause => "mobility error: " ++ cause.message
  | .demand cause => "demand error: " ++ cause.message
  | .fleet cause => "fleet error: " ++ cause.message
  | .energy cause => "charging infrastructure error: " ++ cause.message
  | .network cause => "network error: " ++ cause.message

/-- Everything that is known before a run. -/
structure Scenario (R : Type) where
  /-- The settings of the run. -/
  config : RunConfig
  /-- The road network. -/
  network : Network R
  /-- How routes are found. -/
  router : Router R
  /-- The vehicles. -/
  fleet : Fleet R
  /-- The chargers. -/
  chargers : List (ChargerSpec R) := []
  /-- Requests known in advance, in any order. -/
  requests : List Request := []
  /-- The settings of the dispatcher. -/
  dispatch : DispatchConfig := {}
  /-- When vehicles are sent to charge. -/
  charging : ChargingPolicy R
  /-- Which vehicles are asked. -/
  policy : CandidatePolicy R

/-- A run at the begin of a step. -/
structure Simulation (R : Type) where
  /-- The settings of the run. -/
  config : RunConfig
  /-- The current step. -/
  clock : Clock
  /-- The road network. -/
  network : Network R
  /-- How routes are found. -/
  router : Router R
  /-- Who brings requests and vehicles together. -/
  dispatcher : Dispatcher R
  /-- Who sends vehicles to charge. -/
  planner : ChargingPlanner R
  /-- The vehicles. -/
  fleet : Fleet R
  /-- Where each vehicle is. -/
  movements : List Movement
  /-- The chargers. -/
  chargers : ChargerPool R
  /-- The requests registered so far. -/
  requests : Registry
  /-- The requests to come, in the order of their submission. -/
  arrivals : List Request
  /-- The counts. -/
  stats : RunStats R

namespace Scenario

variable {R : Type} [Scalar R]

/-- Whether the settings of the run are sound. -/
def checkConfig (scenario : Scenario R) : Except (SimulationError R) Unit :=
  if scenario.config.stepSecs = 0 then .error .noStepLength
  else if scenario.config.finish ≤ scenario.config.start then
    .error (.emptyRun scenario.config.start scenario.config.finish)
  else .ok ()

/-- Whether a request begins and ends at nodes of a network. -/
def checkRequest (network : Network R) (request : Request) : Except NetworkError Unit := do
  let _ ← network.checkNode request.origin
  let _ ← network.checkNode request.destination
  return ()

/-- The simulation at its first step. -/
def build (scenario : Scenario R) : Except (SimulationError R) (Simulation R) := do
  scenario.checkConfig
  (scenario.fleet.validateAgainst scenario.network).mapError .fleet
  (scenario.requests.forM (checkRequest scenario.network)).mapError .network
  let dispatcher ← (Dispatcher.make scenario.dispatch scenario.policy).mapError .dispatch
  let planner ← (ChargingPlanner.make scenario.charging).mapError .dispatch
  let chargers ← (ChargerPool.build scenario.chargers scenario.network).mapError .energy
  return {
    config := scenario.config
    clock := scenario.config.clock
    network := scenario.network
    router := scenario.router
    dispatcher := dispatcher
    planner := planner.onGrid scenario.config.start scenario.config.stepSecs
    fleet := scenario.fleet
    movements := Movement.ofFleet scenario.fleet
    chargers := chargers
    requests := {}
    arrivals := scenario.requests.mergeSort fun a b => a.submitted ≤ b.submitted
    stats := .start }

end Scenario

namespace Simulation

variable {R : Type} [Scalar R]

/-! ## Looking at a run -/

/-- The time at the current step. -/
def now (sim : Simulation R) : Time := sim.clock.now

/-- The vehicle with a number. -/
def vehicle (sim : Simulation R) (id : VehicleId) : Except (SimulationError R) (Vehicle R) :=
  (sim.fleet.get id).mapError .fleet

/-- The schedule of a vehicle. -/
def schedule (sim : Simulation R) (id : VehicleId) : Except (SimulationError R) (Schedule R) :=
  (sim.vehicle id).map Vehicle.schedule

/-- The history of a request. -/
def entry (sim : Simulation R) (id : RequestId) : Except (SimulationError R) RequestEntry :=
  (sim.requests.get id).mapError .demand

/-- Where a request stands. -/
def status (sim : Simulation R) (id : RequestId) : Except (SimulationError R) RequestStatus :=
  (sim.entry id).map RequestEntry.status

/-- The vehicles plugged into a charger, in ascending order. -/
def occupancy (sim : Simulation R) (id : ChargerId) :
    Except (SimulationError R) (List VehicleId) :=
  (sim.chargers.occupancy id).mapError .energy

/-- Where a vehicle is drawn at the current step. -/
def position? (sim : Simulation R) (id : VehicleId) : Option (NodeId × NodeId × Float32) :=
  sim.movements[id.index]?.map fun movement => movement.position sim.now

end Simulation

end DemandTransport
