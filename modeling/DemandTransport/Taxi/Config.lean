import DemandTransport.Simulation.Settings

/-!
# The settings of the taxi service

Four hours of a morning with a request every three quarters of a minute. Every group of settings can
be replaced by a JSON object.
-/

namespace DemandTransport.Taxi

/-- The settings of the taxi service. -/
structure Config where
  /-- The run. -/
  run : RunConfig :=
    { start := .ofSecs 21600, finish := .ofSecs 36000, stepSecs := 5, dispatchInterval := 6
      seed := 42, threads := none }
  /-- The dispatcher. -/
  dispatch : DispatchConfig := { expireAfterSecs := some 900 }
  /-- When vehicles are sent to charge. -/
  charging : ChargingPolicy Float := .usual
  /-- The demand. -/
  demand : DemandConfig Float :=
    { meanGap := 45.0, leadSecs := none, windowSecs := 600
      start := .ofSecs 21600, finish := .ofSecs 34200 }

/-- The settings in a JSON object. A group that is left out is that of the taxi service; what is
left out within a group has the usual value of its kind. -/
def Config.read? (json : Json) : Option Config := do
  let own : Config := {}
  match ← json.fields? ["sim", "dispatch", "charging", "demand"] with
  | [run, dispatch, charging, demand] =>
    return {
      run := ← Json.fieldOr own.run (RunConfig.read? {}) run
      dispatch := ← Json.fieldOr own.dispatch (DispatchConfig.read? {}) dispatch
      charging := ← Json.fieldOr own.charging (ChargingPolicy.read? .usual) charging
      demand := ← Json.fieldOr own.demand (DemandConfig.read? .usual) demand }
  | _ => none

end DemandTransport.Taxi
