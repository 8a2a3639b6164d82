import DemandTransport.Dispatch.Report
import DemandTransport.Execution.Event

/-!
# Counting what happens in a run

The counts grow with every dispatch cycle and with every event.
-/

namespace DemandTransport

/-- The counts of a run. -/
structure RunStats (R : Type) where
  /-- Completed steps. -/
  steps : Nat := 0
  /-- Dispatch cycles. -/
  cycles : Nat := 0
  /-- Requests that have been registered. -/
  submitted : Nat := 0
  /-- Requests for which a vehicle was found. -/
  planned : Nat := 0
  /-- Requests that were cancelled. -/
  cancelled : Nat := 0
  /-- Passengers who have boarded. -/
  pickedUp : Nat := 0
  /-- Passengers who have alighted. -/
  performed : Nat := 0
  /-- Charging sessions that were planned. -/
  chargingPlanned : Nat := 0
  /-- Charging sessions that ended with a plug held. -/
  chargingCompleted : Nat := 0
  /-- Charging sessions that began without a free plug. -/
  chargingForfeited : Nat := 0
  /-- Energy drawn from batteries, in kWh. -/
  energyUsed : R
  /-- Energy charged into batteries, in kWh. -/
  energyCharged : R
  deriving BEq, DecidableEq, Repr

namespace RunStats

variable {R : Type} [Scalar R]

/-- The counts before anything has happened. -/
def start : RunStats R := { energyUsed := 0, energyCharged := 0 }

/-- The counts after a dispatch cycle. -/
def recordDispatch (stats : RunStats R) (report : DispatchReport R) : RunStats R :=
  { stats with
    cycles := stats.cycles + 1
    planned := stats.planned + report.planned.length
    cancelled := stats.cancelled + report.cancelled.length
    chargingPlanned := stats.chargingPlanned + report.charging.length }

/-- The counts of boarding, alighting and charging after an event. -/
def recordActivity (stats : RunStats R) (phase : TaskPhase) (activity : Activity) : RunStats R :=
  match phase, activity with
  | .ended, .pickup _ => { stats with pickedUp := stats.pickedUp + 1 }
  | .ended, .dropoff _ => { stats with performed := stats.performed + 1 }
  | .started, .charge _ false => { stats with chargingForfeited := stats.chargingForfeited + 1 }
  | .ended, .charge _ true => { stats with chargingCompleted := stats.chargingCompleted + 1 }
  | _, _ => stats

/-- The amounts of energy after a change of charge. -/
def recordEnergy (stats : RunStats R) (kwh : R) : RunStats R :=
  if 0 < kwh then { stats with energyCharged := stats.energyCharged + kwh }
  else { stats with energyUsed := stats.energyUsed - kwh }

/-- The counts after an event. -/
def recordEvent (stats : RunStats R) (event : TaskEvent R) : RunStats R :=
  let stats := stats.recordActivity event.phase event.activity
  match event.energy with
  | some kwh => stats.recordEnergy kwh
  | none => stats

/-- The part of all registered requests for which a vehicle was found. -/
def serviceRate (stats : RunStats R) : R :=
  if stats.submitted = 0 then 0 else Scalar.ofNat stats.planned / Scalar.ofNat stats.submitted

end RunStats

end DemandTransport
