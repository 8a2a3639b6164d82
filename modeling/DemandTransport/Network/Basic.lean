import DemandTransport.Geo
import DemandTransport.Ident
import DemandTransport.Scalar

/-!
# Road networks

A road network is a list of places, its nodes, and a list of directed links between them. Links are
kept in the order of the nodes they leave, so the links out of one node are a range of identifiers
that two entries of the row table bound. Both facts belong to the type.
-/

namespace DemandTransport

/-- A directed link. -/
structure Link (R : Type) where
  /-- The node that the link leaves. -/
  source : NodeId
  /-- The node that the link reaches. -/
  target : NodeId
  /-- Length in metres. -/
  length : R
  /-- Travel time without other traffic, in milliseconds. -/
  travelMs : Nat
  deriving BEq, DecidableEq, Repr

/-- What a question about a network can fail for. -/
inductive NetworkError where
  /-- No walk leads from one node to the other. -/
  | noRoute (source target : NodeId)
  /-- The network has no such node. -/
  | nodeNotFound (node : NodeId)
  /-- There is no node to snap a place to. -/
  | noNodes (place : GeoPoint)
  deriving Repr

/-- The wording of a network error. -/
def NetworkError.message : NetworkError → String
  | .noRoute source target => "no route from " ++ source.text ++ " to " ++ target.text
  | .nodeNotFound node => "node " ++ node.text ++ " not found in network"
  | .noNodes place => "network has no nodes to snap " ++ place.text ++ " to"

namespace Network

/-- For each node, and once more at the end, how many links leave nodes before it. -/
def rowTable {R : Type} (nodes : Nat) (links : List (Link R)) : Array Nat :=
  ((List.range (nodes + 1)).map fun i => links.countP fun l => l.source.index < i).toArray

end Network

/-- A directed road network. -/
structure Network (R : Type) where
  /-- The place of each node. -/
  places : Array GeoPoint
  /-- The links, numbered by position. -/
  links : Array (Link R)
  /-- The number of the first link out of each node, and the number of links. -/
  rows : Array Nat
  /-- Links are ordered by the nodes they leave. -/
  links_ordered : links.toList.Pairwise fun a b => a.source ≤ b.source
  /-- The row table counts the links that leave earlier nodes. -/
  rows_eq : rows = Network.rowTable places.size links.toList

namespace Network

variable {R : Type}

/-- How many nodes there are. -/
def nodeCount (network : Network R) : Nat := network.places.size

/-- How many links there are. -/
def linkCount (network : Network R) : Nat := network.links.size

/-- Whether there is no node. -/
def isEmpty (network : Network R) : Bool := network.places.isEmpty

/-- Whether a node exists. -/
def contains (network : Network R) (node : NodeId) : Bool := node.index < network.nodeCount

/-- The node itself, provided that it exists. -/
def checkNode (network : Network R) (node : NodeId) : Except NetworkError NodeId :=
  if network.contains node then .ok node else .error (.nodeNotFound node)

/-- The place of a node. -/
def place (network : Network R) (node : NodeId) : Except NetworkError GeoPoint :=
  match network.places[node.index]? with
  | some place => .ok place
  | none => .error (.nodeNotFound node)

/-- The number of the first link that leaves the node with a number or a later one. -/
def rowStart (network : Network R) (index : Nat) : Nat := network.rows[index]?.getD 0

/-- How many links leave a node. -/
def outDegree (network : Network R) (node : NodeId) : Nat :=
  network.rowStart (node.index + 1) - network.rowStart node.index

/-- The links that leave a node, in ascending order. -/
def outLinks (network : Network R) (node : NodeId) : List LinkId :=
  (List.range' (network.rowStart node.index) (network.outDegree node)).map Id.mk

/-- Whether every link joins existing nodes. -/
def Joined (network : Network R) : Prop :=
  ∀ l ∈ network.links, l.source.index < network.nodeCount ∧ l.target.index < network.nodeCount

/-- The node nearest to a place. -/
def snap (network : Network R) (place : GeoPoint) : Except NetworkError NodeId :=
  let closer (best : Option (Float32 × NodeId)) (entry : GeoPoint × Nat) :=
    let square := entry.1.planarSquare place
    match best with
    | some (least, _) => if square < least then some (square, ⟨entry.2⟩) else best
    | none => some (square, ⟨entry.2⟩)
  match network.places.toList.zipIdx.foldl closer none with
  | some (_, node) => .ok node
  | none => .error (.noNodes place)

/-- The `count` nodes nearest to a place, nearest first. -/
def nearest (network : Network R) (place : GeoPoint) (count : Nat) : List NodeId :=
  let near := network.places.toList.zipIdx.mergeSort fun a b =>
    !(b.1.planarSquare place < a.1.planarSquare place)
  (near.take count).map fun entry => ⟨entry.2⟩

end Network

end DemandTransport
