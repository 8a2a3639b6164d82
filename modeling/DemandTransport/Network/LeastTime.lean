import DemandTransport.Clock
import DemandTransport.Network.Route

/-!
# Routes of least travel time

A search keeps, for each node, the least travel time known from the start and the link by which the
node is reached in that time. Each improvement is also an offer. Offers are taken up in the order of
their times, the one of the lowest node first among equals, and passed on to the nodes one link
further; an offer that a better one has overtaken is passed over. When it is the turn of the goal,
its walk is read off backwards from the links by which the nodes are reached. Every link is offered
once at most, which bounds the search, and no node is passed twice on the way back.
-/

namespace DemandTransport.LeastTime

/-- The time of a node that no walk has reached; longer walks count as this long. -/
def unreached : Nat := 0xffffffff

/-- An offer to reach a node. -/
structure Offer where
  /-- Milliseconds from the start. -/
  cost : Nat
  /-- The node. -/
  node : NodeId
  deriving DecidableEq, Repr

namespace Offer

instance : LT Offer := ⟨fun a b => a.cost < b.cost ∨ a.cost = b.cost ∧ a.node < b.node⟩

instance : DecidableLT Offer := fun a b =>
  inferInstanceAs (Decidable (a.cost < b.cost ∨ a.cost = b.cost ∧ a.node < b.node))

/-- Put an offer in its place among others. -/
def enqueue (offer : Offer) : List Offer → List Offer
  | [] => [offer]
  | next :: rest => if next < offer then next :: enqueue offer rest else offer :: next :: rest

end Offer

/-- How far a search has come. -/
structure Frontier where
  /-- The least time known for each node. -/
  costs : Array Nat
  /-- The link by which each node is reached in that time. -/
  lastLinks : Array (Option LinkId)
  /-- The offers that have not been taken up, the next one first. -/
  offers : List Offer
  deriving Repr

namespace Frontier

/-- The least time known for a node. -/
def cost (frontier : Frontier) (node : NodeId) : Nat := frontier.costs[node.index]?.getD unreached

/-- The link by which a node is reached, unless it is the start or has not been reached. -/
def lastLink? (frontier : Frontier) (node : NodeId) : Option LinkId :=
  frontier.lastLinks[node.index]?.join

variable {R : Type}

/-- Offer the end of a link to be reached through the link from a node that is reached after some
time. -/
def relax (network : Network R) (cost : Nat) (frontier : Frontier) (id : LinkId) : Frontier :=
  match network.links[id.index]? with
  | some link =>
    let offered := min (cost + link.travelMs) unreached
    if offered < frontier.cost link.target then
      { costs := frontier.costs.setIfInBounds link.target.index offered
        lastLinks := frontier.lastLinks.setIfInBounds link.target.index (some id)
        offers := Offer.enqueue ⟨offered, link.target⟩ frontier.offers }
    else frontier
  | none => frontier

/-- Pass an offer on to the nodes one link further, unless a better one has overtaken it. -/
def passOn (network : Network R) (offer : Offer) (frontier : Frontier) : Frontier :=
  if frontier.cost offer.node < offer.cost then frontier
  else (network.outLinks offer.node).foldl (relax network offer.cost) frontier

end Frontier

/-- How a search ends. -/
inductive Finding where
  /-- The goal is reached after some time. -/
  | reached (cost : Nat) (frontier : Frontier)
  /-- No offer is left. -/
  | exhausted
  deriving Repr

variable {R : Type}

/-- Take up offers until it is the turn of the goal or none is left. The first argument bounds the
rounds; there is no finding when they do not suffice. -/
def search (network : Network R) (goal : NodeId) : Nat → Frontier → Option Finding
  | 0, _ => none
  | rounds + 1, frontier =>
    match frontier.offers with
    | [] => some .exhausted
    | offer :: rest =>
      if offer.node = goal then some (.reached offer.cost frontier)
      else
        let frontier := { frontier with offers := rest }
        search network goal rounds (frontier.passOn network offer)

/-- The frontier with only the start reached. -/
def initial (network : Network R) (start : NodeId) : Frontier :=
  { costs := (Array.replicate network.nodeCount unreached).setIfInBounds start.index 0
    lastLinks := Array.replicate network.nodeCount none
    offers := [⟨0, start⟩] }

/-- The walk from the start to a node, last link first, read off backwards. The first argument
bounds the steps; there is no walk when they do not suffice. -/
def trace (network : Network R) (start : NodeId) (frontier : Frontier) :
    Nat → NodeId → Option (List LinkId)
  | 0, _ => none
  | steps + 1, node =>
    if node = start then some []
    else
      match frontier.lastLink? node with
      | some id => network.links[id.index]?.bind fun link =>
        (trace network start frontier steps link.source).map (id :: ·)
      | none => some []

/-- The least time from one node to another with a walk that takes this long, last link first, if a
walk leads there. -/
def trail? (network : Network R) (start goal : NodeId) : Option (Nat × List LinkId) :=
  match search network goal (network.linkCount + 2) (initial network start) with
  | some (.reached cost frontier) =>
    (trace network start frontier network.nodeCount goal).map (cost, ·)
  | _ => none

variable [Scalar R]

/-- The length of a walk given last link first, added up in that order. -/
def trailLength (network : Network R) (trail : List LinkId) : R :=
  trail.foldl (fun sum id => sum + (network.links[id.index]?.map Link.length).getD 0) 0

/-- The route along a walk given last link first. -/
def routeOf (network : Network R) (start goal : NodeId) (departure : Time) (cost : Nat)
    (trail : List LinkId) : Route R :=
  { links := trail.reverse
    source := start
    target := goal
    departure := departure
    arrival := departure.offset (ceilDiv cost 1000)
    length := trailLength network trail }

/-- The route of least travel time. A node is reached from itself without a link. -/
def route : Router R := fun network start goal departure =>
  match network.checkNode start, network.checkNode goal with
  | .error e, _ => .error e
  | .ok _, .error e => .error e
  | .ok _, .ok _ =>
    if start = goal then .ok (.atNode start departure)
    else
      match trail? network start goal with
      | some (cost, trail) => .ok (routeOf network start goal departure cost trail)
      | none => .error (.noRoute start goal)

end DemandTransport.LeastTime
