import DemandTransport.Demand.Request
import DemandTransport.Fleet.Basic

/-!
# Which vehicles are asked

A policy names the vehicles that may serve a request, in any order and possibly more than once. The
dispatcher asks each of them that is in the fleet once, in ascending order.
-/

namespace DemandTransport

/-- The vehicles that may serve a request. -/
abbrev CandidatePolicy (R : Type) := Request → Fleet R → List VehicleId

namespace CandidatePolicy

variable {R : Type} [Scalar R]

/-- Every vehicle of the fleet. -/
def allVehicles : CandidatePolicy R := fun _ fleet => fleet.vehiclesOf fun _ => true

/-- The same vehicles for every request. -/
def listed (ids : List VehicleId) : CandidatePolicy R := fun _ _ => ids

end CandidatePolicy

/-- The vehicles that passengers call their own. -/
structure Designations where
  /-- Each passenger's vehicles in the order in which they were assigned. -/
  vehicles : List (PassengerId × List VehicleId) := []
  deriving DecidableEq, Repr

namespace Designations

/-- The vehicles of a passenger. -/
def vehiclesFor (designations : Designations) (passenger : PassengerId) : List VehicleId :=
  (designations.vehicles.lookup passenger).getD []

/-- Assign a vehicle to a passenger; one that is assigned already stays where it is. -/
def assign (designations : Designations) (passenger : PassengerId) (vehicle : VehicleId) :
    Designations :=
  let own := designations.vehiclesFor passenger
  if own.contains vehicle then designations
  else
    let others := designations.vehicles.filter fun entry => entry.1 != passenger
    ⟨(passenger, own ++ [vehicle]) :: others⟩

/-- Assign vehicles to passengers one by one. -/
def ofList (pairs : List (PassengerId × VehicleId)) : Designations :=
  pairs.foldl (fun d pair => d.assign pair.1 pair.2) {}

/-- Passengers may only ride in their own vehicles. -/
def policy {R : Type} (designations : Designations) : CandidatePolicy R :=
  fun request _ => designations.vehiclesFor request.passenger

end Designations

/-- Put an identifier into an ascending list in which none comes twice. -/
def insertAscending {kind : IdKind} (id : Id kind) : List (Id kind) → List (Id kind)
  | [] => [id]
  | x :: rest =>
    if id < x then id :: x :: rest
    else if id = x then x :: rest
    else x :: insertAscending id rest

/-- The identifiers of a list in ascending order, each once. -/
def ascending {kind : IdKind} (ids : List (Id kind)) : List (Id kind) :=
  ids.foldr insertAscending []

end DemandTransport
