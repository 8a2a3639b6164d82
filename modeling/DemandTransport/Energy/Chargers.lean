import DemandTransport.Energy.Error

/-!
# Chargers

The chargers of a run stand at nodes of the road network. Each has a number of plugs, and a vehicle
that charges holds one of them. Chargers are kept and visited in ascending order of their
identifiers.
-/

namespace DemandTransport

/-- Where a charger stands. -/
inductive ChargerSite where
  /-- At a node. -/
  | node (node : NodeId)
  /-- At a place, to be snapped to the nearest node. -/
  | place (place : GeoPoint)
  deriving Repr

/-- What is known of a charger in advance. -/
structure ChargerSpec (R : Type) where
  /-- The charger. -/
  charger : ChargerId
  /-- Where it stands. -/
  site : ChargerSite
  /-- Rated power in kW. -/
  power : R
  /-- How many vehicles can charge at once. -/
  plugs : Nat
  deriving Repr

/-- A charger at a node. -/
structure Charger (R : Type) where
  /-- The charger's identifier. -/
  id : ChargerId
  /-- The node at which it stands. -/
  node : NodeId
  /-- Rated power in kW. -/
  power : R
  /-- How many vehicles can charge at once. -/
  plugs : Nat
  /-- The vehicles plugged in, in the order in which they came. -/
  plugged : List VehicleId := []
  deriving BEq, DecidableEq, Repr

namespace Charger

variable {R : Type}

/-- Plug a vehicle in; one that is plugged in already stays as it is. -/
def occupy (charger : Charger R) (vehicle : VehicleId) : Except (EnergyError R) (Charger R) :=
  if vehicle ∈ charger.plugged then .ok charger
  else if charger.plugs ≤ charger.plugged.length then
    .error (.chargerFull charger.id vehicle charger.plugs)
  else .ok { charger with plugged := charger.plugged ++ [vehicle] }

/-- Unplug a vehicle. The first component tells whether it was plugged in. -/
def release (charger : Charger R) (vehicle : VehicleId) : Bool × Charger R :=
  (vehicle ∈ charger.plugged, { charger with plugged := charger.plugged.erase vehicle })

/-- The vehicles plugged in, in ascending order. -/
def occupancy (charger : Charger R) : List VehicleId :=
  charger.plugged.mergeSort fun a b => a ≤ b

/-- How many more vehicles could plug in. -/
def freePlugs (charger : Charger R) : Nat := charger.plugs - charger.plugged.length

end Charger

/-- The chargers of a run. -/
structure ChargerPool (R : Type) where
  /-- The chargers in ascending order, no two with one identifier. -/
  chargers : List (Charger R)
  deriving BEq, DecidableEq, Repr

namespace ChargerPool

variable {R : Type}

/-- No chargers at all. -/
def empty : ChargerPool R := ⟨[]⟩

/-- How many chargers there are. -/
def size (pool : ChargerPool R) : Nat := pool.chargers.length

/-- Whether there is no charger. -/
def isEmpty (pool : ChargerPool R) : Bool := pool.chargers.isEmpty

/-- The charger with an identifier, if there is one. -/
def find? (pool : ChargerPool R) (id : ChargerId) : Option (Charger R) :=
  pool.chargers.find? (·.id == id)

/-- The charger with an identifier. -/
def get (pool : ChargerPool R) (id : ChargerId) : Except (EnergyError R) (Charger R) :=
  match pool.find? id with
  | some charger => .ok charger
  | none => .error (.chargerNotFound id)

/-- Put a charger in its place in ascending order. -/
def place (charger : Charger R) : List (Charger R) → List (Charger R)
  | [] => [charger]
  | c :: rest => if charger.id < c.id then charger :: c :: rest else c :: place charger rest

/-- The pool with a charger in the place of the one with its identifier. -/
def update (pool : ChargerPool R) (charger : Charger R) : ChargerPool R :=
  ⟨pool.chargers.map fun c => if c.id = charger.id then charger else c⟩

/-- Plug a vehicle into a charger. -/
def occupy (pool : ChargerPool R) (id : ChargerId) (vehicle : VehicleId) :
    Except (EnergyError R) (ChargerPool R) := do
  let charger ← pool.get id
  let charger ← charger.occupy vehicle
  return pool.update charger

/-- Unplug a vehicle from a charger. The first component tells whether it was plugged in. -/
def release (pool : ChargerPool R) (id : ChargerId) (vehicle : VehicleId) :
    Except (EnergyError R) (Bool × ChargerPool R) := do
  let charger ← pool.get id
  let (held, charger) := charger.release vehicle
  return (held, pool.update charger)

/-- The vehicles plugged into a charger, in ascending order. -/
def occupancy (pool : ChargerPool R) (id : ChargerId) : Except (EnergyError R) (List VehicleId) :=
  (pool.get id).map Charger.occupancy

variable [Scalar R]

/-- The node at which a charger stands. -/
def siteNode (network : Network R) : ChargerSite → Except NetworkError NodeId
  | .node node => network.checkNode node
  | .place place => network.snap place

/-- Add a charger to the pool, provided that its specification is sound and its identifier new. -/
def add (network : Network R) (pool : ChargerPool R) (spec : ChargerSpec R) :
    Except (EnergyError R) (ChargerPool R) :=
  if ¬(Scalar.isFinite spec.power ∧ 0 < spec.power) then
    .error (.invalidCharger spec.charger (.power spec.power))
  else if spec.plugs = 0 then .error (.invalidCharger spec.charger .noPlugs)
  else
    match siteNode network spec.site with
    | .error cause => .error (.network cause)
    | .ok node =>
      if (pool.find? spec.charger).isSome then .error (.duplicateCharger spec.charger)
      else .ok ⟨place ⟨spec.charger, node, spec.power, spec.plugs, []⟩ pool.chargers⟩

/-- The chargers of a list of specifications, all plugs free. -/
def build (specs : List (ChargerSpec R)) (network : Network R) :
    Except (EnergyError R) (ChargerPool R) :=
  specs.foldlM (add network) empty

end ChargerPool

end DemandTransport
