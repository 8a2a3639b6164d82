import DemandTransport.Decimal.Fixed
import DemandTransport.Dispatch.Config

/-!
# The outcome of a dispatch cycle

A report lists the requests that were planned, those that no vehicle could take with the reasons of
every vehicle asked, those that were cancelled, and the charging sessions that were planned.
-/

namespace DemandTransport

/-- Why a vehicle cannot take a request. -/
inductive RejectionReason (R : Type) where
  /-- No idle time is left in its schedule. -/
  | unavailable
  /-- No walk leads to the origin, or from there to the destination. -/
  | noPath
  /-- The vehicle reaches the origin after the window has closed. -/
  | outsideWindow (arrival latest : Time)
  /-- Alighting ends after the vehicle's idle time. -/
  | beyondHorizon (dropoffEnd horizonEnd : Time)
  /-- The vehicle has no seats. -/
  | noSeats
  /-- The battery would run empty. -/
  | energyInfeasible (least : R)
  deriving BEq, DecidableEq, Repr

/-- The wording of a reason. -/
def RejectionReason.text : RejectionReason Float → String
  | .unavailable => "no idle time left"
  | .noPath => "no path"
  | .outsideWindow arrival latest =>
    "arrives at " ++ arrival.text ++ ", window closes at " ++ latest.text
  | .beyondHorizon dropoffEnd horizonEnd =>
    "dropoff ends at " ++ dropoffEnd.text ++ ", vehicle stops at " ++ horizonEnd.text
  | .noSeats => "no seats"
  | .energyInfeasible least => "battery would reach " ++ Decimal.fixed 2 least ++ " kWh"

/-- A vehicle that cannot take a request. -/
structure Rejection (R : Type) where
  /-- The vehicle. -/
  vehicle : VehicleId
  /-- Why it cannot. -/
  reason : RejectionReason R
  deriving BEq, DecidableEq, Repr

/-- A request that stays unplanned, with the reason of every vehicle asked. -/
structure InfeasibleRequest (R : Type) where
  /-- The request. -/
  request : RequestId
  /-- The vehicles asked, in ascending order. -/
  rejections : List (Rejection R)
  deriving BEq, DecidableEq, Repr

/-- A request for which a vehicle was found. -/
structure Assignment (R : Type) where
  /-- The request. -/
  request : RequestId
  /-- The vehicle. -/
  vehicle : VehicleId
  /-- When boarding begins. -/
  pickupAt : Time
  /-- When alighting begins. -/
  dropoffAt : Time
  /-- The cost of the plan. -/
  cost : R
  deriving BEq, DecidableEq, Repr

/-- A charging session planned for a vehicle. -/
structure ChargingAssignment (R : Type) where
  /-- The vehicle. -/
  vehicle : VehicleId
  /-- The charger. -/
  charger : ChargerId
  /-- When charging begins. -/
  start : Time
  /-- When charging ends. -/
  finish : Time
  /-- Energy gained in kWh. -/
  energy : R
  deriving BEq, DecidableEq, Repr

/-- The outcome of a dispatch cycle. -/
structure DispatchReport (R : Type) where
  /-- When the cycle took place. -/
  now : Time
  /-- Planned requests in the order of submission. -/
  planned : List (Assignment R) := []
  /-- Requests that stay unplanned, in the order of submission. -/
  unplanned : List (InfeasibleRequest R) := []
  /-- Cancelled requests in the order of submission. -/
  cancelled : List (RequestId × CancelReason) := []
  /-- Planned charging sessions. -/
  charging : List (ChargingAssignment R) := []
  deriving BEq, DecidableEq, Repr

namespace DispatchReport

variable {R : Type}

/-- Whether nothing happened. -/
def isEmpty (report : DispatchReport R) : Bool :=
  report.planned.isEmpty && report.unplanned.isEmpty && report.cancelled.isEmpty &&
    report.charging.isEmpty

/-- The report of two cycles together. -/
def absorb (report other : DispatchReport R) : DispatchReport R :=
  { now := max report.now other.now
    planned := report.planned ++ other.planned
    unplanned := report.unplanned ++ other.unplanned
    cancelled := report.cancelled ++ other.cancelled
    charging := report.charging ++ other.charging }

end DispatchReport

end DemandTransport
