import DemandTransport.Network.Draft

/-!
# A town on a grid

The taxi service works in a town whose roads form a square grid. Nodes are numbered row by row, and
neighbours are joined by a road in either direction.
-/

namespace DemandTransport.Taxi

/-- Nodes along a side of the grid. -/
def side : Nat := 6

/-- Degrees between neighbours, about half a kilometre. -/
def spacing : Float32 := 0.0045

/-- The speed on all roads in metres per second. -/
def speed : Float32 := 10.0

/-- The node in a row and a column. -/
def nodeAt (row column : Nat) : NodeId := ⟨row * side + column⟩

/-- The place of the node in a row and a column. -/
def placeAt (row column : Nat) : GeoPoint :=
  ⟨30.69 + row.toFloat32 * spacing, -88.05 + column.toFloat32 * spacing⟩

/-- All pairs of a row and a column, row by row. -/
def cells : List (Nat × Nat) :=
  (List.range side).flatMap fun row => (List.range side).map fun column => (row, column)

/-- Add the roads from a node to the next one in its row and in its column. -/
def addRoads (draft : Network.Draft Float) (row column : Nat) : Network.Draft Float :=
  let here := nodeAt row column
  let along :=
    if column + 1 < side then draft.addRoadAtSpeed here (nodeAt row (column + 1)) speed else draft
  if row + 1 < side then along.addRoadAtSpeed here (nodeAt (row + 1) column) speed else along

/-- The road network of the town. -/
def grid : Network Float :=
  let bare : Network.Draft Float := {}
  let nodes := cells.foldl (fun draft (row, column) => draft.addNode (placeAt row column)) bare
  (cells.foldl (fun draft (row, column) => addRoads draft row column) nodes).build

end DemandTransport.Taxi
