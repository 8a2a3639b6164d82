import DemandTransport.Demand.Generate
import DemandTransport.Dispatch.Config
import DemandTransport.Simulation.Config
import DemandTransport.Text.Json.Reader

/-!
# Settings written in JSON

Each kind of settings is a JSON object with the names given here. A name that is left out has its
usual value, and other names are passed over.
-/

namespace DemandTransport

open Json

/-- A count of seconds or anything else that fits into a word. -/
def Json.word? : Json → Option Nat := Json.count? wordLimit

/-- An instant. -/
def Json.time? (json : Json) : Option Time := json.word?.map Time.ofSecs

/-- The settings of a run, those that are left out being as in `usual`. -/
def RunConfig.read? (usual : RunConfig) (json : Json) : Option RunConfig := do
  match ← json.fields? ["start_time", "end_time", "step_secs", "dispatch_interval_steps", "seed",
    "num_threads"] with
  | [start, finish, stepSecs, interval, seed, threads] =>
    return {
      start := ← fieldOr usual.start time? start
      finish := ← fieldOr usual.finish time? finish
      stepSecs := ← fieldOr usual.stepSecs (count? 0xffffffff) stepSecs
      dispatchInterval := ← fieldOr usual.dispatchInterval word? interval
      seed := ← fieldOr usual.seed word? seed
      threads := ← fieldOr usual.threads (nullable word?) threads }
  | _ => none

/-- A cost function: its name, alone or as the only member of an object, which is null. -/
def CostFunction.read? : Json → Option CostFunction
  | .text name => ofName? name
  | .object [(name, .null)] => ofName? name
  | _ => none

/-- The settings of the dispatcher, those that are left out being as in `usual`. -/
def DispatchConfig.read? (usual : DispatchConfig) (json : Json) : Option DispatchConfig := do
  match ← json.fields? ["pickup_secs", "dropoff_secs", "cost", "expire_after_secs",
    "cancel_after_window"] with
  | [pickup, dropoff, cost, expire, cancel] =>
    return {
      pickupSecs := ← fieldOr usual.pickupSecs word? pickup
      dropoffSecs := ← fieldOr usual.dropoffSecs word? dropoff
      cost := ← fieldOr usual.cost CostFunction.read? cost
      expireAfterSecs := ← fieldOr usual.expireAfterSecs (nullable word?) expire
      cancelAfterWindow := ← fieldOr usual.cancelAfterWindow bool? cancel }
  | _ => none

/-- When to charge, with what is left out as in `usual`. -/
def ChargingPolicy.read? (usual : ChargingPolicy Float) (json : Json) :
    Option (ChargingPolicy Float) := do
  match ← json.fields? ["min_soc", "target_soc"] with
  | [least, target] =>
    return ⟨← fieldOr usual.minSoc measure? least, ← fieldOr usual.targetSoc measure? target⟩
  | _ => none

/-- What random demand is like, with what is left out as in `usual`. -/
def DemandConfig.read? (usual : DemandConfig Float) (json : Json) :
    Option (DemandConfig Float) := do
  match ← json.fields? ["mean_interarrival_secs", "lead_secs", "window_secs", "start", "end"] with
  | [gap, lead, window, start, finish] =>
    return {
      meanGap := ← fieldOr usual.meanGap measure? gap
      leadSecs := ← fieldOr usual.leadSecs (nullable word?) lead
      windowSecs := ← fieldOr usual.windowSecs word? window
      start := ← fieldOr usual.start time? start
      finish := ← fieldOr usual.finish time? finish }
  | _ => none

end DemandTransport
