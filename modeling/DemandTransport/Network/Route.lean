import DemandTransport.Network.Basic
import DemandTransport.Time

/-!
# Routes

A route is a walk through the network with its departure and its arrival. The arrival is in whole
seconds, rounded up, so that no vehicle is expected before it can be there.
-/

namespace DemandTransport

/-- A walk from one node to another, with times. -/
structure Route (R : Type) where
  /-- The links in the order of travel. -/
  links : List LinkId
  /-- Where the route begins. -/
  source : NodeId
  /-- Where the route ends. -/
  target : NodeId
  /-- When the route is begun. -/
  departure : Time
  /-- When the route is completed. -/
  arrival : Time
  /-- Length of all links in metres. -/
  length : R
  deriving BEq, DecidableEq, Repr

namespace Route

variable {R : Type} [Scalar R]

/-- The route that stays at a node. -/
def atNode (node : NodeId) (t : Time) : Route R := ⟨[], node, node, t, t, 0⟩

/-- Seconds from departure to arrival. -/
def travelSecs (route : Route R) : Nat := route.arrival.since route.departure

/-- Length in kilometres. -/
def kilometres (route : Route R) : R := route.length / 1000.0

/-- Whether the route takes no link. -/
def isTrivial (route : Route R) : Bool := route.links.isEmpty

/-- The same walk begun at another time. -/
def departingAt (route : Route R) (departure : Time) : Route R :=
  { route with departure := departure, arrival := departure.offset route.travelSecs }

end Route

/-- A way to find routes: from one node to another, leaving at a time. -/
abbrev Router (R : Type) :=
  Network R → NodeId → NodeId → Time → Except NetworkError (Route R)

end DemandTransport
