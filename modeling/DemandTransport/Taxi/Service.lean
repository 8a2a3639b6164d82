import DemandTransport.Decimal.Fixed
import DemandTransport.Energy.ChargerTable
import DemandTransport.Fleet.FleetTable
import DemandTransport.Network.LeastTime
import DemandTransport.Simulation.Run
import DemandTransport.Taxi.Config
import DemandTransport.Taxi.Failure
import DemandTransport.Taxi.Grid

/-!
# The taxi service

Eight vehicles, four of them electric, serve random requests in a town with two chargers. What is
told consists of lines before the run, which describe the scenario, and lines behind it, which sum
the run up and show where the vehicles end.
-/

namespace DemandTransport.Taxi

/-! ## The scenario -/

/-- The vehicles: service from six to twelve, the last four vehicles electric. -/
def fleetTable : String :=
  "vehicle_id,start_node,start_time,end_time,capacity,battery_kwh,initial_soc,curve," ++
    "kwh_per_km,aux_kw\n" ++
  "0,0,21600,43200,4,,,,,\n" ++
  "1,5,21600,43200,4,,,,,\n" ++
  "2,30,21600,43200,4,,,,,\n" ++
  "3,35,21600,43200,4,,,,,\n" ++
  "4,14,21600,43200,4,60,0.35,tesla,0.18,1.5\n" ++
  "5,15,21600,43200,4,60,0.25,tesla,0.18,1.5\n" ++
  "6,20,21600,43200,4,40,0.30,nissan_leaf,0.16,1.0\n" ++
  "7,21,21600,43200,4,40,0.22,nissan_leaf,0.16,1.0\n"

/-- The chargers: a slow one at a node and a fast one at a place. -/
def chargerTable : String :=
  "charger_id,node,lat,lon,power_kw,plugs\n" ++
  "0,14,,,22.0,2\n" ++
  "1,,30.7125,-88.0275,150.0,1\n"

/-- The settings in a file, whose content is a text or the reason why it cannot be read. -/
def Config.ofFile (path : String) : Except String String → Except Failure Config
  | .error reason => .error (.unreadable path reason)
  | .ok source =>
    match (Json.parse? source).bind Config.read? with
    | some config => .ok config
    | none => .error (.malformed path)

/-- The lines before the run. -/
def opening (network : Network Float) (fleet : Fleet Float) (chargers : List (ChargerSpec Float))
    (requests : List Request) : List String :=
  let electric := (fleet.vehiclesOf Vehicle.isElectric).length
  ["=== taxi — rust_drt dispatch core ===",
    "Road network: " ++ Decimal.ofNat network.nodeCount ++ " nodes, " ++
      Decimal.ofNat network.linkCount ++ " links",
    "Fleet: " ++ Decimal.ofNat fleet.size ++ " vehicles (" ++ Decimal.ofNat electric ++
      " electric), " ++ Decimal.ofNat chargers.length ++ " chargers",
    "Demand: " ++ Decimal.ofNat requests.length ++ " requests",
    ""]

/-- The taxi service before its run: the lines told so far, and the simulation if it can be
built. -/
structure Prepared where
  /-- The lines before the run. -/
  lines : List String
  /-- The simulation. -/
  simulation : Except Failure (Simulation Float)

/-- Prepare the run. -/
def prepare (config : Config) : Except Failure Prepared := do
  let fleet ← (FleetTable.read CurveTable.presets fleetTable).mapError Failure.fleet
  let chargers ← (ChargerTable.read chargerTable).mapError Failure.energy
  let source := Generator.ofSeed config.run.seed.toUInt64
  match Generator.source.generate config.demand grid.nodeCount source with
  | none => throw .tooManyRequests
  | some (requests, _) =>
    let scenario : Scenario Float :=
      { config := config.run, network := grid, router := LeastTime.route, fleet := fleet
        chargers := chargers, requests := requests, dispatch := config.dispatch
        charging := config.charging, policy := .allVehicles }
    return ⟨opening grid fleet chargers requests, scenario.build.mapError .simulation⟩

/-! ## The run -/

/-- Count the dispatch cycles in which something happens. -/
def busyCycles : Observer Float Nat := fun notice cycles =>
  match notice with
  | .dispatched report => if report.isEmpty then cycles else cycles + 1
  | _ => cycles

/-- Run a simulation to its end, counting the busy dispatch cycles. -/
def complete (simulation : Simulation Float) : Except Failure (Observed Float Nat) :=
  ((Observed.run busyCycles).outcome ⟨simulation, 0⟩) |> fun (outcome, final) =>
    match outcome with
    | .ok _ => .ok final
    | .error cause => .error (.simulation cause)

/-! ## The summary -/

/-- The mean of the seconds until boarding over all requests that were performed, if there are
any. -/
def meanWait? (requests : Registry) : Option Float :=
  let waits := (requests.archive.filter fun e => e.status == .performed).filterMap
    RequestEntry.waitSecs?
  if waits.isEmpty then none
  else some (Float.ofNat (waits.foldl (· + ·) 0) / Float.ofNat waits.length)

/-- The counts of a run, one a line. -/
def countLines (final : Observed Float Nat) : List String :=
  let stats := final.sim.stats
  let count := Decimal.ofNat
  ["  submitted           : " ++ count stats.submitted,
    "  planned             : " ++ count stats.planned ++ " (" ++
      Decimal.fixed 1 (stats.serviceRate * 100.0) ++ " %)",
    "  performed           : " ++ count stats.performed,
    "  cancelled           : " ++ count stats.cancelled,
    "  still unplanned     : " ++ count final.sim.requests.unplannedCount,
    "  dispatch cycles     : " ++ count stats.cycles ++ " (" ++ count final.memory ++
      " with work)",
    "  charging sessions   : " ++ count stats.chargingPlanned ++ " planned, " ++
      count stats.chargingCompleted ++ " completed, " ++ count stats.chargingForfeited ++
      " forfeited",
    "  energy used/charged : " ++ Decimal.fixed 1 stats.energyUsed ++ " / " ++
      Decimal.fixed 1 stats.energyCharged ++ " kWh"]

/-- A row of the table of vehicles. -/
def tableRow (vehicle node tasks charge : String) : String :=
  Decimal.padRight 8 vehicle ++ " " ++ Decimal.padRight 10 node ++ " " ++
    Decimal.padRight 8 tasks ++ " " ++ Decimal.padRight 10 charge

/-- The row of a vehicle: where it is, how many tasks it has, and its charge if it is electric. -/
def vehicleRow (sim : Simulation Float) (vehicle : Vehicle Float) : String :=
  let node := ((sim.position? vehicle.id).map fun position => position.1.text).getD "-"
  let charge := (vehicle.battery?.map fun battery =>
    Decimal.fixed 0 (battery.share * 100.0) ++ " %").getD "-"
  tableRow vehicle.id.text node (Decimal.ofNat vehicle.schedule.size) charge

/-- The lines behind the run. -/
def closing (final : Observed Float Nat) : List String :=
  let wait := (meanWait? final.sim.requests).map fun mean =>
    "  mean wait to board  : " ++ Decimal.fixed 0 mean ++ " s"
  countLines final ++ wait.toList ++
    ["", tableRow "Vehicle" "Node" "Tasks" "SoC", String.ofList (List.replicate 38 '-')] ++
    final.sim.fleet.vehicles.map (vehicleRow final.sim)

end DemandTransport.Taxi
