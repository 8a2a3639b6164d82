import DemandTransport.Fleet.Basic

/-!
# Movements

Where a vehicle is, as far as its schedule tells: at a node, or on its way between two nodes. On its
way it counts as being where it left until it arrives.
-/

namespace DemandTransport

/-- Where a vehicle is. -/
structure Movement where
  /-- Whether the vehicle is on its way. -/
  inTransit : Bool
  /-- The node that the vehicle has left, or at which it stands. -/
  source : NodeId
  /-- The node at which the vehicle will arrive, or at which it stands. -/
  target : NodeId
  /-- When the vehicle left, or came to stand. -/
  departure : Time
  /-- When the vehicle will arrive, or came to stand. -/
  arrival : Time
  deriving DecidableEq, Repr

namespace Movement

/-- Standing at a node since an instant. -/
def stationary (node : NodeId) (since : Time) : Movement := ⟨false, node, node, since, since⟩

/-- On the way along a route. -/
def driving {R : Type} (route : Route R) : Movement :=
  ⟨true, route.source, route.target, route.departure, route.arrival⟩

/-- The node at which the vehicle counts as being. -/
def node (movement : Movement) : NodeId := movement.source

/-- A count of seconds as a binary32 number. -/
def single (secs : Nat) : Float32 := secs.toUInt64.toFloat32

/-- The part of the way that lies behind the vehicle at an instant, all of it when it stands. -/
def progress (movement : Movement) (now : Time) : Float32 :=
  if movement.inTransit ∧ movement.departure < movement.arrival then
    let part := single (now.since movement.departure) /
      single (movement.arrival.since movement.departure)
    if part < 1.0 then part else 1.0
  else 1.0

/-- Where a vehicle is drawn at an instant: the ends of its way and how far along it is. -/
def position (movement : Movement) (now : Time) : NodeId × NodeId × Float32 :=
  (movement.source, movement.target, movement.progress now)

/-- All vehicles of a fleet standing where and when their horizons begin. -/
def ofFleet {R : Type} (fleet : Fleet R) : List Movement :=
  fleet.vehicles.map fun v => stationary v.startNode v.start

end Movement

end DemandTransport
