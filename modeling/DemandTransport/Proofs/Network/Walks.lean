import DemandTransport.Network.Rows
import Mathlib.Algebra.GroupWithZero.Nat
import Mathlib.Data.List.Induction

/-!
# Links and walks

The links out of a node are exactly those of the network that leave it, since the row table counts
the links of earlier nodes and links stand in the order of the nodes they leave. A walk is a list of
links of which each one begins where the one before it ends.
-/

namespace DemandTransport.Network

variable {R : Type} {network : Network R} {node start goal : NodeId} {id : LinkId}

/-! ## The links out of a node -/

/-- A row starts behind the links that leave earlier nodes. -/
theorem rowStart_eq (network : Network R) {i : Nat} (h : i ≤ network.nodeCount) :
    network.rowStart i = network.links.toList.countP fun l => l.source.index < i := by
  have hi : i < network.places.size + 1 := Nat.lt_succ_of_le h
  simp [rowStart, network.rows_eq, rowTable, hi]

/-- As many links are listed as leave the node. -/
theorem outDegree_eq (h : node.index < network.nodeCount) :
    network.outDegree node = network.links.toList.countP fun l => l.source = node := by
  have hsource : (fun l : Link R => decide (l.source = node)) =
      fun l => decide (l.source.index = node.index) := by
    funext l
    rw [decide_eq_decide, Id.eq_iff]
  rw [outDegree, rowStart_eq network h, rowStart_eq network (Nat.le_of_lt h), countP_source_lt_succ,
    Nat.add_sub_cancel_left, hsource]

@[simp] theorem outLinks_length (network : Network R) (node : NodeId) :
    (network.outLinks node).length = network.outDegree node := by
  simp [outLinks]

/-- Among links in order, those that leave earlier nodes come first. -/
theorem lt_countP_source_iff {links : List (Link R)} {k : Nat} {link : Link R}
    (hordered : links.Pairwise fun a b => a.source ≤ b.source) (hlink : links[k]? = some link)
    (i : Nat) : (k < links.countP fun l => l.source.index < i) ↔ link.source.index < i := by
  induction links generalizing k with
  | nil => simp at hlink
  | cons first rest ih =>
    obtain ⟨hfirst, hrest⟩ := List.pairwise_cons.mp hordered
    have hle : first.source.index ≤ link.source.index := by
      cases k with
      | zero =>
        cases hlink
        exact Nat.le_refl _
      | succ k => exact hfirst link (List.mem_of_getElem? hlink)
    rw [List.countP_cons]
    by_cases hi : first.source.index < i
    · cases k with
      | zero =>
        cases hlink
        simp [hi]
      | succ k => simpa [hi] using ih hrest hlink
    · have hnone : (rest.countP fun l => l.source.index < i) = 0 := by
        refine List.countP_eq_zero.mpr fun l hl => ?_
        have hlater : first.source.index ≤ l.source.index := hfirst l hl
        simpa using Nat.le_trans (Nat.le_of_not_lt hi) hlater
      simp only [hnone, hi, decide_false, Bool.false_eq_true, if_false]
      omega

/-- The links that are listed for a node are those that leave it. -/
theorem mem_outLinks (h : node.index < network.nodeCount) :
    id ∈ network.outLinks node ↔
      ∃ link, network.links[id.index]? = some link ∧ link.source = node := by
  have hmem : id ∈ network.outLinks node ↔
      network.rowStart node.index ≤ id.index ∧ id.index < network.rowStart (node.index + 1) := by
    simp only [outLinks, outDegree, List.mem_map, List.mem_range'_1]
    constructor
    · rintro ⟨i, hi, rfl⟩
      dsimp only
      omega
    · rintro ⟨hfrom, hto⟩
      exact ⟨id.index, by omega, rfl⟩
  rw [hmem, rowStart_eq network (Nat.le_of_lt h), rowStart_eq network h]
  have hplace {link : Link R} (hlink : network.links[id.index]? = some link) :=
    lt_countP_source_iff network.links_ordered (by simpa using hlink)
  constructor
  · rintro ⟨hfrom, hto⟩
    have hbound : id.index < network.links.size := by
      simpa using Nat.lt_of_lt_of_le hto List.countP_le_length
    have hlink := Array.getElem?_eq_getElem hbound
    refine ⟨_, hlink, Id.eq_iff.mpr ?_⟩
    have hafter := mt (hplace hlink node.index).mpr (Nat.not_lt.mpr hfrom)
    have hbefore := (hplace hlink (node.index + 1)).mp hto
    omega
  · rintro ⟨link, hlink, rfl⟩
    exact ⟨Nat.le_of_not_lt (mt (hplace hlink _).mp (Nat.lt_irrefl _)),
      (hplace hlink _).mpr (Nat.lt_succ_self _)⟩

/-! ## Walks -/

/-- Links that lead from one node to another, each from where the one before it ends. -/
inductive Walk (network : Network R) : NodeId → List LinkId → NodeId → Prop where
  /-- Without a link one stays where one is. -/
  | nil (node : NodeId) : network.Walk node [] node
  /-- A link of the network is followed by a walk from its end. -/
  | cons {id : LinkId} {link : Link R} {rest : List LinkId} {goal : NodeId}
    (found : network.links[id.index]? = some link) (later : network.Walk link.target rest goal) :
    network.Walk link.source (id :: rest) goal

/-- The travel time of some links, in milliseconds. -/
def travelMs (network : Network R) (links : List LinkId) : Nat :=
  (links.map fun id => (network.links[id.index]?.map Link.travelMs).getD 0).sum

@[simp] theorem travelMs_nil (network : Network R) : network.travelMs [] = 0 := rfl

/-- Travel times add up along a walk. -/
theorem travelMs_append (network : Network R) (a b : List LinkId) :
    network.travelMs (a ++ b) = network.travelMs a + network.travelMs b := by
  simp [travelMs]

theorem travelMs_cons {link : Link R} (h : network.links[id.index]? = some link)
    (rest : List LinkId) :
    network.travelMs (id :: rest) = link.travelMs + network.travelMs rest := by
  simp [travelMs, h]

@[simp] theorem travelMs_reverse (network : Network R) (links : List LinkId) :
    network.travelMs links.reverse = network.travelMs links := by
  rw [travelMs, List.map_reverse, List.sum_reverse, travelMs]

theorem Walk.eq_of_nil (h : network.Walk start [] goal) : start = goal := by
  cases h
  rfl

/-- A walk can be continued by a link from its end. -/
theorem Walk.concat {links : List LinkId} {link : Link R}
    (h : network.Walk start links link.source) (hlink : network.links[id.index]? = some link) :
    network.Walk start (links ++ [id]) link.target := by
  generalize hsource : link.source = node at h
  induction h with
  | nil node => exact hsource ▸ .cons hlink (.nil _)
  | cons found _ ih => exact .cons found (ih hsource)

/-- The last link of a walk continues a walk to where it begins. -/
theorem Walk.of_concat {links : List LinkId} (h : network.Walk start (links ++ [id]) goal) :
    ∃ link, network.links[id.index]? = some link ∧ network.Walk start links link.source ∧
      link.target = goal := by
  induction links generalizing start with
  | nil =>
    cases h with
    | cons found later => exact ⟨_, found, .nil _, later.eq_of_nil⟩
  | cons first rest ih =>
    cases h with
    | cons found later =>
      obtain ⟨link, hlink, hwalk, htarget⟩ := ih later
      exact ⟨link, hlink, .cons found hwalk, htarget⟩

end DemandTransport.Network
