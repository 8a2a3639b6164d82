import DemandTransport.Fleet.Vehicle

/-!
# Fleets

The vehicles of a fleet are numbered from zero on and kept in the order of their numbers.
-/

namespace DemandTransport

/-- The vehicles of a run. -/
structure Fleet (R : Type) where
  /-- The vehicles in the order of their numbers. -/
  vehicles : List (Vehicle R)
  deriving BEq, DecidableEq, Repr

/-- A vehicle to be added to a fleet under the next number. -/
structure VehiclePlan (R : Type) where
  /-- Where its horizon begins. -/
  node : NodeId
  /-- Seats for passengers. -/
  seats : Nat
  /-- Model and charge of an electric vehicle. -/
  energy : Option (EnergyProfile R × R)

namespace Fleet

variable {R : Type} [Scalar R]

/-- The first vehicle from an index on that is not numbered by its place. -/
def misnumbered? : Nat → List (Vehicle R) → Option (FleetError R)
  | _, [] => none
  | i, v :: rest =>
    if v.id = ⟨i⟩ then misnumbered? (i + 1) rest else some (.nonDenseIds ⟨i⟩ v.id)

/-- The fleet of some vehicles in any order, whose numbers have to count up from zero. -/
def ofVehicles (vehicles : List (Vehicle R)) : Except (FleetError R) (Fleet R) :=
  let sorted := vehicles.mergeSort fun a b => a.id ≤ b.id
  match misnumbered? 0 sorted with
  | some e => .error e
  | none => .ok ⟨sorted⟩

/-- The vehicle of a plan under a number. -/
def vehicleOf (start finish : Time) (index : Nat) (plan : VehiclePlan R) :
    Except (FleetError R) (Vehicle R) :=
  match plan.energy with
  | none => Vehicle.conventional ⟨index⟩ plan.node start finish plan.seats
  | some (profile, charge) =>
    Vehicle.electric ⟨index⟩ plan.node start finish plan.seats profile charge

/-- The fleet of some plans, numbered in order, all over one horizon. -/
def ofPlans (start finish : Time) (plans : List (VehiclePlan R)) :
    Except (FleetError R) (Fleet R) :=
  let vehicle (entry : VehiclePlan R × Nat) := vehicleOf start finish entry.2 entry.1
  (plans.zipIdx.mapM vehicle).map Fleet.mk

/-- Whether every vehicle begins at a node of a network, or the first one that does not. -/
def validateAgainst (fleet : Fleet R) (network : Network R) : Except (FleetError R) Unit :=
  fleet.vehicles.forM fun v =>
    match network.checkNode v.startNode with
    | .ok _ => .ok ()
    | .error cause => .error (.network cause)

/-- How many vehicles there are. -/
def size (fleet : Fleet R) : Nat := fleet.vehicles.length

/-- Whether there is no vehicle. -/
def isEmpty (fleet : Fleet R) : Bool := fleet.vehicles.isEmpty

/-- The vehicle with a number. -/
def get (fleet : Fleet R) (id : VehicleId) : Except (FleetError R) (Vehicle R) :=
  match fleet.vehicles[id.index]? with
  | some vehicle => .ok vehicle
  | none => .error (.vehicleNotFound id)

/-- The fleet with another vehicle under a number. -/
def set (fleet : Fleet R) (id : VehicleId) (vehicle : Vehicle R) : Fleet R :=
  ⟨fleet.vehicles.set id.index vehicle⟩

/-- Where and when a vehicle can next begin new work. -/
def available (fleet : Fleet R) (id : VehicleId) (now : Time) :
    Except (FleetError R) (NodeId × Time) :=
  (fleet.get id).map fun v => v.available now

/-- The numbers of the vehicles that satisfy a condition, in ascending order. -/
def vehiclesOf (fleet : Fleet R) (p : Vehicle R → Bool) : List VehicleId :=
  (fleet.vehicles.filter p).map Vehicle.id

end Fleet

end DemandTransport
