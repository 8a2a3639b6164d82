import DemandTransport.Network.Rows

/-!
# Drafting a network

Nodes and links are added to a draft one by one. A finished draft becomes a network in which each
node's links keep the order in which they were added.
-/

namespace DemandTransport

/-- A network in the making. -/
structure Network.Draft (R : Type) where
  /-- The places of the nodes added so far. -/
  places : Array GeoPoint := #[]
  /-- The links added so far. -/
  links : Array (Link R) := #[]

namespace Network.Draft

variable {R : Type}

/-- Add a node, which takes the next number. -/
def addNode (draft : Draft R) (place : GeoPoint) : Draft R :=
  { draft with places := draft.places.push place }

/-- The number of the node to be added next. -/
def nextNode (draft : Draft R) : NodeId := ⟨draft.places.size⟩

/-- Add a directed link. -/
def addLink (draft : Draft R) (source target : NodeId) (length : R) (travelMs : Nat) : Draft R :=
  { draft with links := draft.links.push ⟨source, target, length, travelMs⟩ }

/-- Add a link in either direction. -/
def addRoad (draft : Draft R) (a b : NodeId) (length : R) (travelMs : Nat) : Draft R :=
  (draft.addLink a b length travelMs).addLink b a length travelMs

/-- The place of a node added before. -/
def place (draft : Draft R) (node : NodeId) : GeoPoint := draft.places[node.index]?.getD default

/-- The larger of a speed and walking pace, which also stands in for an undefined speed. -/
def atLeastCrawling (speed : Float32) : Float32 := if 0.1 ≤ speed then speed else 0.1

/-- Add a road as long as the great-circle distance of its ends, travelled at a speed in metres per
second. -/
def addRoadAtSpeed (draft : Draft Float) (a b : NodeId) (speed : Float32) : Draft Float :=
  let length := (draft.place a).distance (draft.place b)
  let travelMs := (length / atLeastCrawling speed * 1000.0).round.toUInt32.toNat
  draft.addRoad a b length.toFloat travelMs

/-- Whether one link leaves a node no later in the order than another. -/
def leavesNoLater (a b : Link R) : Bool := a.source ≤ b.source

theorem leavesNoLater_trans (a b c : Link R) (hab : leavesNoLater a b = true)
    (hbc : leavesNoLater b c = true) : leavesNoLater a c = true := by
  simp only [leavesNoLater, decide_eq_true_eq, Id.le_iff] at *
  omega

theorem leavesNoLater_total (a b : Link R) :
    (leavesNoLater a b || leavesNoLater b a) = true := by
  simp only [leavesNoLater, Bool.or_eq_true, decide_eq_true_eq, Id.le_iff]
  omega

theorem pairwise_leavesNoLater (links : List (Link R)) :
    (links.mergeSort leavesNoLater).Pairwise fun a b => a.source ≤ b.source := by
  have sorted := List.pairwise_mergeSort leavesNoLater_trans leavesNoLater_total links
  exact sorted.imp fun h => by simpa [leavesNoLater] using h

/-- The finished network. -/
def build (draft : Draft R) : Network R :=
  let links := draft.links.toList.mergeSort leavesNoLater
  { places := draft.places
    links := links.toArray
    rows := countRows draft.places.size links
    links_ordered := pairwise_leavesNoLater draft.links.toList
    rows_eq := countRows_eq draft.places.size links }

end Network.Draft

/-- The network without nodes. -/
def Network.empty (R : Type) : Network R := ({} : Network.Draft R).build

end DemandTransport
