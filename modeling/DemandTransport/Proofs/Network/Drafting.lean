import DemandTransport.Network.Draft
import DemandTransport.Proofs.Network.Walks

/-!
# From a draft to a network

A network that is built from a draft has the nodes and the links that were added, and nothing else.
Sorting the links by the nodes they leave keeps the links of each node in the order in which they
were added, and the rows of the nodes, one behind the other, number all links.
-/

namespace DemandTransport.Network

variable {R : Type}

/-! ## Additions to a draft -/

namespace Draft

/-- What can be added to a draft. -/
inductive Addition (R : Type) where
  | node (place : GeoPoint)
  /-- A link in one direction. -/
  | link (source target : NodeId) (length : R) (travelMs : Nat)
  /-- A link in either direction. -/
  | road (a b : NodeId) (length : R) (travelMs : Nat)

namespace Addition

/-- The draft with an addition. -/
def addTo (draft : Draft R) : Addition R → Draft R
  | node place => draft.addNode place
  | link source target length travelMs => draft.addLink source target length travelMs
  | road a b length travelMs => draft.addRoad a b length travelMs

/-- The places of the nodes that are added. -/
def places : Addition R → List GeoPoint
  | node place => [place]
  | _ => []

/-- The links that are added, in this order. -/
def links : Addition R → List (Link R)
  | node _ => []
  | link source target length travelMs => [⟨source, target, length, travelMs⟩]
  | road a b length travelMs => [⟨a, b, length, travelMs⟩, ⟨b, a, length, travelMs⟩]

theorem addTo_places (draft : Draft R) (addition : Addition R) :
    (addition.addTo draft).places.toList = draft.places.toList ++ addition.places := by
  cases addition <;> simp [addTo, places, addNode, addLink, addRoad]

theorem addTo_links (draft : Draft R) (addition : Addition R) :
    (addition.addTo draft).links.toList = draft.links.toList ++ addition.links := by
  cases addition <;> simp [addTo, links, addNode, addLink, addRoad]

end Addition

/-- The draft made by some additions, one after the other. -/
def ofAdditions (additions : List (Addition R)) : Draft R :=
  additions.foldl (fun draft addition => addition.addTo draft) {}

theorem foldl_addTo (additions : List (Addition R)) (draft : Draft R) :
    let added := additions.foldl (fun draft addition => addition.addTo draft) draft
    added.places.toList = draft.places.toList ++ additions.flatMap Addition.places ∧
      added.links.toList = draft.links.toList ++ additions.flatMap Addition.links := by
  induction additions generalizing draft with
  | nil => simp
  | cons addition rest ih =>
    obtain ⟨hplaces, hlinks⟩ := ih (addition.addTo draft)
    refine ⟨hplaces.trans ?_, hlinks.trans ?_⟩
    · rw [addition.addTo_places, List.append_assoc, List.flatMap_cons]
    · rw [addition.addTo_links, List.append_assoc, List.flatMap_cons]

theorem ofAdditions_places (additions : List (Addition R)) :
    (ofAdditions additions).places.toList = additions.flatMap Addition.places :=
  (foldl_addTo additions {}).1.trans (List.nil_append _)

theorem ofAdditions_links (additions : List (Addition R)) :
    (ofAdditions additions).links.toList = additions.flatMap Addition.links :=
  (foldl_addTo additions {}).2.trans (List.nil_append _)

/-! ## Sorting -/

/-- Sorting keeps the links of each node in their order. -/
theorem filter_mergeSort (links : List (Link R)) (node : NodeId) :
    (links.mergeSort leavesNoLater).filter (fun l => l.source = node) =
      links.filter fun l => l.source = node := by
  have hequal : (links.filter fun l => l.source = node).Pairwise
      fun a b => leavesNoLater a b = true := by
    refine List.pairwise_of_forall_mem_list fun a ha b hb => ?_
    have ha := (List.mem_filter.mp ha).2
    have hb := (List.mem_filter.mp hb).2
    simp_all [leavesNoLater, Id.le_iff]
  have hsub := (List.sublist_mergeSort leavesNoLater_trans leavesNoLater_total hequal
    List.filter_sublist).filter fun l => l.source = node
  have hlength := ((List.mergeSort_perm links leavesNoLater).filter
    fun l => decide (l.source = node)).length_eq
  simp only [List.filter_filter, Bool.and_self] at hsub
  exact (hsub.eq_of_length hlength.symm).symm

end Draft

/-! ## Rows of links in order -/

variable {links : List (Link R)} {network : Network R} {node : NodeId}

/-- The row of a node begins behind the rows of the nodes before it. -/
theorem rowStart_succ (h : node.index < network.nodeCount) :
    network.rowStart (node.index + 1) = network.rowStart node.index + network.outDegree node := by
  rw [outDegree, rowStart_eq network h, rowStart_eq network (Nat.le_of_lt h),
    countP_source_lt_succ, Nat.add_sub_cancel_left]

/-- Among links in order, those that leave a node stand together behind those that leave earlier
ones. -/
theorem take_drop_source (hordered : links.Pairwise fun a b => a.source ≤ b.source) (i : Nat) :
    (links.drop (links.countP fun l => l.source.index < i)).take
        (links.countP fun l => l.source.index = i) =
      links.filter fun l => l.source.index = i := by
  induction links with
  | nil => rfl
  | cons first rest ih =>
    obtain ⟨hfirst, hrest⟩ := List.pairwise_cons.mp hordered
    have hlater : ∀ l ∈ rest, first.source.index ≤ l.source.index := hfirst
    by_cases hbefore : first.source.index < i
    · have hne : first.source.index ≠ i := by omega
      simpa [hbefore, hne] using ih hrest
    · have hnone : (rest.countP fun l => l.source.index < i) = 0 := by
        refine List.countP_eq_zero.mpr fun l hl => ?_
        have := hlater l hl
        simpa using by omega
      have ih := ih hrest
      rw [hnone, List.drop_zero] at ih
      by_cases hhere : first.source.index = i
      · simp [hnone, hhere, ih]
      · have hempty : rest.filter (fun l => l.source.index = i) = [] := by
          refine List.filter_eq_nil_iff.mpr fun l hl => ?_
          have := hlater l hl
          simpa using by omega
        simp [hbefore, hhere, hempty, List.countP_eq_length_filter]

/-- The links that are listed for a node are those that leave it, in their order. -/
theorem map_outLinks (h : node.index < network.nodeCount) :
    (network.outLinks node).map (fun id => network.links[id.index]?) =
      (network.links.toList.filter fun l => l.source = node).map some := by
  have hsource : (fun l : Link R => decide (l.source = node)) =
      fun l => decide (l.source.index = node.index) := by
    funext l
    rw [decide_eq_decide, Id.eq_iff]
  have hfits : network.rowStart node.index + network.outDegree node ≤ network.links.size := by
    rw [← rowStart_succ h, rowStart_eq network h, ← Array.length_toList]
    exact List.countP_le_length
  rw [hsource, ← take_drop_source network.links_ordered, ← rowStart_eq network (Nat.le_of_lt h),
    ← hsource, ← outDegree_eq h]
  refine List.ext_getElem? fun k => ?_
  by_cases hk : k < network.outDegree node
  · have hlink : network.rowStart node.index + k < network.links.size := by omega
    simp [outLinks, hk, hlink]
  · simp [outLinks, hk, Nat.min_eq_left (Nat.le_sub_of_add_le' hfits)]

/-- The rows of the first nodes number the first links. -/
theorem flatMap_outLinks {nodes : Nat} (h : nodes ≤ network.nodeCount) :
    (List.range nodes).flatMap (fun i => network.outLinks ⟨i⟩) =
      (List.range (network.rowStart nodes)).map Id.mk := by
  induction nodes with
  | zero => simp [rowStart_eq network h]
  | succ nodes ih =>
    have hnext : network.rowStart (nodes + 1) =
        network.rowStart nodes + network.outDegree ⟨nodes⟩ := @rowStart_succ R network ⟨nodes⟩ h
    have hrow : List.range (network.rowStart nodes) ++
        List.range' (network.rowStart nodes) (network.outDegree ⟨nodes⟩) =
          List.range (network.rowStart (nodes + 1)) := by
      simp only [List.range_eq_range', hnext]
      simpa using @List.range'_append_1 0 (network.rowStart nodes) (network.outDegree ⟨nodes⟩)
    rw [List.range_succ, List.flatMap_append, ih (Nat.le_of_succ_le h), List.flatMap_singleton,
      outLinks, ← List.map_append, hrow]

/-- No link is listed for two nodes. -/
theorem disjoint_outLinks {a b : NodeId} (ha : a.index < network.nodeCount)
    (hb : b.index < network.nodeCount) (hne : a ≠ b) :
    (network.outLinks a).Disjoint (network.outLinks b) := by
  intro id hfirst hsecond
  obtain ⟨link, hlink, hsource⟩ := (mem_outLinks ha).mp hfirst
  obtain ⟨other, hother, hsource'⟩ := (mem_outLinks hb).mp hsecond
  obtain rfl : link = other := by simpa [hlink] using hother
  exact hne (hsource.symm.trans hsource')

/-- No row begins behind the last link. -/
theorem rows_le (network : Network R) : ∀ start ∈ network.rows, start ≤ network.linkCount := by
  intro start hstart
  rw [network.rows_eq, rowTable, List.mem_toArray, List.mem_map] at hstart
  obtain ⟨i, -, rfl⟩ := hstart
  exact List.countP_le_length

/-! ## The network that is built -/

/-- If all links leave nodes of the network, the rows end with the last link. -/
theorem rowStart_nodeCount
    (hsource : ∀ link ∈ network.links.toList, link.source.index < network.nodeCount) :
    network.rowStart network.nodeCount = network.linkCount := by
  rw [rowStart_eq network (Nat.le_refl _), linkCount, ← Array.length_toList,
    List.countP_eq_length]
  simpa using hsource

open Draft in
/-- A network has the nodes and the links that were added. The links out of each node are those that
were added for it, in the order in which they were added. No link belongs to two nodes, and the rows
of all nodes, one behind the other, number every link once. -/
theorem build_keeps_additions (additions : List (Addition R))
    (hsource : ∀ link ∈ additions.flatMap Addition.links,
      link.source.index < (additions.flatMap Addition.places).length) :
    let network := (ofAdditions additions).build
    let added := additions.flatMap Addition.links
    network.places.toList = additions.flatMap Addition.places ∧
      network.linkCount = added.length ∧
      (∀ node, network.contains node = true →
        (network.outLinks node).map (fun id => network.links[id.index]?) =
          (added.filter fun link => link.source = node).map some) ∧
      (∀ a b, network.contains a = true → network.contains b = true → a ≠ b →
        (network.outLinks a).Disjoint (network.outLinks b)) ∧
      (List.range network.nodeCount).flatMap (fun i => network.outLinks ⟨i⟩) =
        (List.range network.linkCount).map Id.mk ∧
      ((List.range network.nodeCount).map fun i => network.outDegree ⟨i⟩).sum =
        network.linkCount ∧
      ∀ start ∈ network.rows, start ≤ network.linkCount := by
  intro network added
  have hplaces : network.places.toList = additions.flatMap Addition.places :=
    ofAdditions_places additions
  have hlinks : network.links.toList = added.mergeSort leavesNoLater :=
    congrArg (List.mergeSort · leavesNoLater) (ofAdditions_links additions)
  have hperm : network.links.toList.Perm added := hlinks ▸ List.mergeSort_perm added leavesNoLater
  have hcount : network.nodeCount = (additions.flatMap Addition.places).length := by
    rw [nodeCount, ← Array.length_toList, hplaces]
  have hends := @rowStart_nodeCount R network fun link hlink =>
    hcount ▸ hsource link (hperm.mem_iff.mp hlink)
  have hrows := @flatMap_outLinks R network network.nodeCount (Nat.le_refl _)
  rw [hends] at hrows
  refine ⟨hplaces, ?_, fun node hnode => ?_, fun a b ha hb hne => ?_, hrows, ?_, network.rows_le⟩
  · rw [linkCount, ← Array.length_toList, hperm.length_eq]
  · rw [map_outLinks (by simpa [contains] using hnode), hlinks, filter_mergeSort]
  · exact disjoint_outLinks (by simpa [contains] using ha) (by simpa [contains] using hb) hne
  · simpa [Function.comp_def] using congrArg List.length hrows

/-- Four nodes, of which the last one has no link out, with parallel links and a loop that are not
added in order. -/
def Draft.crossroads : List (Draft.Addition Nat) :=
  [.node default, .node default, .link ⟨2⟩ ⟨0⟩ 5 10, .node default, .node default,
    .road ⟨0⟩ ⟨1⟩ 3 7, .link ⟨2⟩ ⟨0⟩ 5 20, .link ⟨0⟩ ⟨0⟩ 1 0, .link ⟨1⟩ ⟨3⟩ 2 4]

open Draft in
theorem build_keeps_additions_crossroads :
    (∀ link ∈ crossroads.flatMap Addition.links,
      link.source.index < (crossroads.flatMap Addition.places).length) ∧
    let network := (ofAdditions crossroads).build
    network.linkCount = 6 ∧
      (network.outLinks ⟨0⟩).map (fun id => network.links[id.index]?) =
        [some ⟨⟨0⟩, ⟨1⟩, 3, 7⟩, some ⟨⟨0⟩, ⟨0⟩, 1, 0⟩] ∧
      (network.outLinks ⟨2⟩).map (fun id => network.links[id.index]?) =
        [some ⟨⟨2⟩, ⟨0⟩, 5, 10⟩, some ⟨⟨2⟩, ⟨0⟩, 5, 20⟩] ∧
      (network.outLinks ⟨3⟩).map (fun id => network.links[id.index]?) = [] := by
  have hsource : ∀ link ∈ crossroads.flatMap Addition.links,
      link.source.index < (crossroads.flatMap Addition.places).length := by
    decide
  obtain ⟨-, hcount, hrows, -⟩ := build_keeps_additions crossroads hsource
  exact ⟨hsource, hcount, hrows ⟨0⟩ (by decide), hrows ⟨2⟩ (by decide), hrows ⟨3⟩ (by decide)⟩

end DemandTransport.Network
