import DemandTransport.Proofs.Network.Reach
import DemandTransport.Proofs.Network.Walks
import Mathlib.Data.Finset.Card

/-!
# The router finds routes of least travel time

A node is settled once an offer to reach it has been passed on. The times of settled nodes are not
above those of the offers that are left, so they do not change any more; every walk leads to a
settled node or past an offer that takes no longer. Hence the offer whose turn it is when it is the
goal's takes the least time. Links lead back from a reached node through settled nodes only, each
time through one settled earlier, so the way back ends at the start even where links take no time.
-/

namespace DemandTransport.LeastTime

variable {R : Type}

/-! ## Offers in order -/

namespace Offer

theorem lt_iff {a b : Offer} : a < b ↔ a.cost < b.cost ∨ a.cost = b.cost ∧ a.node < b.node :=
  Iff.rfl

theorem cost_le_of_lt {a b : Offer} (h : a < b) : a.cost ≤ b.cost := by
  rcases lt_iff.mp h with hcost | ⟨hcost, -⟩
  · exact Nat.le_of_lt hcost
  · exact Nat.le_of_eq hcost

theorem lt_trans {a b c : Offer} (hab : a < b) (hbc : b < c) : a < c := by
  simp only [lt_iff, Id.lt_iff] at *
  omega

/-- Of two offers that differ, one precedes the other. -/
theorem lt_of_not_lt {a b : Offer} (h : ¬a < b) (hne : a ≠ b) : b < a := by
  have hnode : a.cost = b.cost → a.node.index ≠ b.node.index := by
    intro hcost hindex
    exact hne (by cases a; cases b; simp_all [Id.eq_iff])
  simp only [lt_iff, Id.lt_iff] at *
  omega

/-- A new offer that is put in its place leaves offers in order. -/
theorem pairwise_enqueue {offer : Offer} {offers : List Offer}
    (h : offers.Pairwise (· < ·)) (hnew : offer ∉ offers) :
    (enqueue offer offers).Pairwise (· < ·) := by
  induction offers with
  | nil => simp [enqueue]
  | cons next rest ih =>
    obtain ⟨hnext, hrest⟩ := List.pairwise_cons.mp h
    obtain ⟨hne, hnew⟩ := not_or.mp (mt List.mem_cons.mpr hnew)
    unfold enqueue
    split
    next hlater =>
      refine List.pairwise_cons.mpr ⟨fun other hother => ?_, ih hrest hnew⟩
      rcases mem_enqueue.mp hother with rfl | hold
      · exact hlater
      · exact hnext other hold
    next hsooner =>
      have hfirst := lt_of_not_lt hsooner (Ne.symm hne)
      refine List.pairwise_cons.mpr ⟨fun other hother => ?_, h⟩
      rcases List.mem_cons.mp hother with rfl | hold
      · exact hfirst
      · exact lt_trans hfirst (hnext other hold)

@[simp] theorem length_enqueue (offer : Offer) (offers : List Offer) :
    (enqueue offer offers).length = offers.length + 1 := by
  induction offers with
  | nil => rfl
  | cons next rest ih =>
    unfold enqueue
    split <;> simp [ih]

end Offer

namespace Frontier

variable {network : Network R} {start node other : NodeId} {id : LinkId} {link : Link R}
  {settled : List NodeId} {frontier frontier' : Frontier} {offer : Offer} {rest : List Offer}

/-! ## The way back -/

/-- Links lead back from a node to the start, through settled nodes behind the first one. -/
inductive Traces (frontier : Frontier) (network : Network R) (start : NodeId)
    (settled : List NodeId) : NodeId → List LinkId → Prop where
  /-- The start has been reached. -/
  | start : Traces frontier network start settled start []
  /-- A link leads back to a settled node. -/
  | link {id : LinkId} {link : Link R} {trail : List LinkId}
    (reached : frontier.lastLink? link.target = some id)
    (found : network.links[id.index]? = some link) (other : link.target ≠ start)
    (before : link.source ∈ settled)
    (earlier : Traces frontier network start settled link.source trail) :
    Traces frontier network start settled link.target (id :: trail)

namespace Traces

variable {trail : List LinkId}

/-- The links make a walk, taken the other way round. -/
theorem walk (h : frontier.Traces network start settled node trail) :
    network.Walk start trail.reverse node := by
  induction h with
  | start => exact .nil start
  | link _ found _ _ _ ih =>
    rw [List.reverse_cons]
    exact ih.concat found

/-- Where the links by which settled nodes are reached do not change, they lead back as before. -/
theorem congr {settled' : List NodeId} (h : frontier.Traces network start settled node trail)
    (hsettled : ∀ other ∈ settled, frontier'.lastLink? other = frontier.lastLink? other)
    (hmore : ∀ other ∈ settled, other ∈ settled')
    (hnode : frontier'.lastLink? node = frontier.lastLink? node) :
    frontier'.Traces network start settled' node trail := by
  induction h with
  | start => exact .start
  | link reached found other before _ ih =>
    exact .link (hnode.trans reached) found other (hmore _ before) (ih (hsettled _ before))

/-- The way back is found in as many steps as it has links, and one more. -/
theorem trace_eq (h : frontier.Traces network start settled node trail) {steps : Nat}
    (hsteps : trail.length < steps) : trace network start frontier steps node = some trail := by
  induction h generalizing steps with
  | start =>
    obtain ⟨steps, rfl⟩ := Nat.exists_eq_succ_of_ne_zero (Nat.ne_zero_of_lt hsteps)
    simp [trace]
  | link reached found other _ _ ih =>
    obtain ⟨steps, rfl⟩ := Nat.exists_eq_succ_of_ne_zero (Nat.ne_zero_of_lt hsteps)
    simp [trace, other, reached, found, ih (Nat.lt_of_succ_lt_succ hsteps)]

end Traces

/-! ## What is known in the course of a search -/

/-- What holds of a frontier once some nodes are settled. -/
structure Explored (frontier : Frontier) (network : Network R) (start : NodeId)
    (settled : List NodeId) : Prop where
  costs_size : frontier.costs.size = network.nodeCount
  links_size : frontier.lastLinks.size = network.nodeCount
  /-- No node is settled twice. -/
  distinct : settled.Nodup
  known : ∀ node ∈ settled, network.contains node = true
  cost_start : frontier.cost start = 0
  cost_le : ∀ node, frontier.cost node ≤ unreached
  /-- Offers are taken up in order, and none is made twice. -/
  ordered : frontier.offers.Pairwise (· < ·)
  within : ∀ offer ∈ frontier.offers, network.contains offer.node = true
  /-- The least time known for a node is not above that of an offer to reach it. -/
  offered : ∀ offer ∈ frontier.offers, frontier.cost offer.node ≤ offer.cost
  offer_lt : ∀ offer ∈ frontier.offers, offer.cost < unreached
  /-- Settled nodes take no longer than any offer. -/
  ahead : ∀ node ∈ settled, ∀ offer ∈ frontier.offers, frontier.cost node ≤ offer.cost
  /-- An offer to reach a settled node has been overtaken. -/
  overtaken : ∀ offer ∈ frontier.offers, offer.node ∈ settled →
    frontier.cost offer.node < offer.cost
  /-- A node that is reached is settled or is offered to be reached in the least time known. -/
  waiting : ∀ node, frontier.cost node < unreached →
    node ∈ settled ∨ ⟨frontier.cost node, node⟩ ∈ frontier.offers
  /-- A walk of the least time known leads back over no more links than other nodes are settled. -/
  traced : ∀ node, frontier.cost node < unreached → ∃ trail,
    frontier.Traces network start settled node trail ∧
      network.travelMs trail = frontier.cost node ∧ trail.length ≤ (settled.erase node).length

/-- The links out of settled nodes do not lead anywhere sooner than is known. -/
def Relaxed (frontier : Frontier) (network : Network R) (settled : List NodeId) : Prop :=
  ∀ (id : LinkId) (link : Link R), network.links[id.index]? = some link → link.source ∈ settled →
    frontier.cost link.target ≤ min (frontier.cost link.source + link.travelMs) unreached

/-- An upper bound for the offers that are still to be taken up: those that have been made, and one
for each link out of a node that is not settled. -/
def remaining (frontier : Frontier) (network : Network R) (settled : List NodeId) : Nat :=
  frontier.offers.length + network.links.toList.countP fun l => l.source ∉ settled

/-- A frontier after some links have been offered: nothing takes longer, and nothing has changed for
the settled nodes. -/
structure Improves (frontier frontier' : Frontier) (settled : List NodeId) : Prop where
  cost_le : ∀ node, frontier'.cost node ≤ frontier.cost node
  cost_eq : ∀ node ∈ settled, frontier'.cost node = frontier.cost node

theorem Improves.refl (frontier : Frontier) (settled : List NodeId) :
    frontier.Improves frontier settled :=
  ⟨fun _ => Nat.le_refl _, fun _ _ => rfl⟩

/-- What improves twice improves. -/
theorem Improves.trans {last : Frontier} (h : frontier.Improves frontier' settled)
    (h' : frontier'.Improves last settled) : frontier.Improves last settled :=
  ⟨fun node => (h'.cost_le node).trans (h.cost_le node),
    fun node hnode => (h'.cost_eq node hnode).trans (h.cost_eq node hnode)⟩

/-! ## Offering the links of a node -/

/-- The frontier with a better offer to reach a node. -/
def improve (frontier : Frontier) (node : NodeId) (cost : Nat) (id : LinkId) : Frontier :=
  { costs := frontier.costs.setIfInBounds node.index cost
    lastLinks := frontier.lastLinks.setIfInBounds node.index (some id)
    offers := Offer.enqueue ⟨cost, node⟩ frontier.offers }

/-- A link is offered only if it leads to its end sooner than is known. -/
theorem relax_eq (hlink : network.links[id.index]? = some link) (cost : Nat)
    (frontier : Frontier) : frontier.relax network cost id =
      if min (cost + link.travelMs) unreached < frontier.cost link.target then
        frontier.improve link.target (min (cost + link.travelMs) unreached) id
      else frontier := by
  simp only [relax, hlink]
  rfl

/-- What is set for a node is found there, and what is found elsewhere is as before. -/
theorem getElem?_set {α : Type} {values : Array α} (hnode : node.index < values.size) (value : α)
    (other : NodeId) : (values.setIfInBounds node.index value)[other.index]? =
      if other = node then some value else values[other.index]? := by
  split
  next hsame => simp [hsame, hnode]
  next hother => exact Array.getElem?_setIfInBounds_ne fun heq => hother (Id.eq_iff.mpr heq.symm)

namespace Explored

/-- Only the node to which the offer leads is reached sooner. -/
theorem improve_cost (h : frontier.Explored network start settled)
    (hnode : network.contains node = true) (cost : Nat) (id : LinkId) (other : NodeId) :
    (frontier.improve node cost id).cost other =
      if other = node then cost else frontier.cost other := by
  have hbound : node.index < frontier.costs.size := by
    rw [h.costs_size]
    simpa [Network.contains] using hnode
  rw [improve, Frontier.cost, getElem?_set hbound]
  split <;> rfl

theorem improve_lastLink? (h : frontier.Explored network start settled)
    (hnode : network.contains node = true) (cost : Nat) (id : LinkId) (other : NodeId) :
    (frontier.improve node cost id).lastLink? other =
      if other = node then some id else frontier.lastLink? other := by
  have hbound : node.index < frontier.lastLinks.size := by
    rw [h.links_size]
    simpa [Network.contains] using hnode
  rw [improve, Frontier.lastLink?, getElem?_set hbound]
  split <;> rfl

end Explored

/-- A link out of a settled node that takes the longest of all settled ones leads somewhere sooner
than is known. -/
structure Shortcut (frontier : Frontier) (network : Network R) (settled : List NodeId)
    (id : LinkId) (link : Link R) : Prop where
  found : network.links[id.index]? = some link
  target : network.contains link.target = true
  source : link.source ∈ settled
  last : ∀ other ∈ settled, frontier.cost other ≤ frontier.cost link.source
  sooner : frontier.cost link.source + link.travelMs < frontier.cost link.target

/-- The frontier with the offer that a link makes. -/
def taking (frontier : Frontier) (id : LinkId) (link : Link R) : Frontier :=
  frontier.improve link.target (frontier.cost link.source + link.travelMs) id

theorem mem_taking_offers : offer ∈ (frontier.taking id link).offers ↔
    offer = ⟨frontier.cost link.source + link.travelMs, link.target⟩ ∨ offer ∈ frontier.offers :=
  Offer.mem_enqueue

namespace Shortcut

variable (hcut : frontier.Shortcut network settled id link)

include hcut

theorem not_settled : link.target ∉ settled := by
  intro hmem
  have hlast := hcut.last _ hmem
  have hsooner := hcut.sooner
  omega

/-- All settled nodes are other ones. -/
theorem ne_target {other : NodeId} (hmem : other ∈ settled) : other ≠ link.target := by
  rintro rfl
  exact hcut.not_settled hmem

variable (h : frontier.Explored network start settled)

include h

theorem target_ne_start : link.target ≠ start := by
  intro heq
  have hsooner := hcut.sooner
  rw [heq, h.cost_start] at hsooner
  omega

theorem cost_eq (other : NodeId) : (frontier.taking id link).cost other =
    if other = link.target then frontier.cost link.source + link.travelMs
    else frontier.cost other :=
  h.improve_cost hcut.target _ id other

/-- Settled nodes take as long as before. -/
theorem cost_settled {other : NodeId} (hmem : other ∈ settled) :
    (frontier.taking id link).cost other = frontier.cost other := by
  rw [hcut.cost_eq h, if_neg (hcut.ne_target hmem)]

theorem lastLink?_eq (other : NodeId) : (frontier.taking id link).lastLink? other =
    if other = link.target then some id else frontier.lastLink? other :=
  h.improve_lastLink? hcut.target _ id other

/-- Settled nodes are reached through the same links as before. -/
theorem lastLink?_settled {other : NodeId} (hmem : other ∈ settled) :
    (frontier.taking id link).lastLink? other = frontier.lastLink? other := by
  rw [hcut.lastLink?_eq h, if_neg (hcut.ne_target hmem)]

/-- No node takes longer than before. -/
theorem improves : frontier.Improves (frontier.taking id link) settled where
  cost_le other := by
    rw [hcut.cost_eq h]
    split
    next hsame =>
      rw [hsame]
      exact hcut.sooner.le
    next => exact Nat.le_refl _
  cost_eq _ hmem := hcut.cost_settled h hmem

/-- The offer that the link makes is a new one. -/
theorem ordered : (frontier.taking id link).offers.Pairwise (· < ·) := by
  refine Offer.pairwise_enqueue h.ordered fun hmem => ?_
  exact Nat.not_lt.mpr (h.offered _ hmem) hcut.sooner

theorem offered : ∀ offer ∈ (frontier.taking id link).offers,
    (frontier.taking id link).cost offer.node ≤ offer.cost := by
  intro offer hoffer
  rcases mem_taking_offers.mp hoffer with rfl | hold
  · rw [hcut.cost_eq h, if_pos rfl]
  · exact ((hcut.improves h).cost_le _).trans (h.offered offer hold)

theorem ahead : ∀ node ∈ settled, ∀ offer ∈ (frontier.taking id link).offers,
    (frontier.taking id link).cost node ≤ offer.cost := by
  intro node hmem offer hoffer
  rw [hcut.cost_settled h hmem]
  rcases mem_taking_offers.mp hoffer with rfl | hold
  · exact Nat.le_add_right_of_le (hcut.last node hmem)
  · exact h.ahead node hmem offer hold

theorem overtaken : ∀ offer ∈ (frontier.taking id link).offers, offer.node ∈ settled →
    (frontier.taking id link).cost offer.node < offer.cost := by
  intro offer hoffer hmem
  rw [hcut.cost_settled h hmem]
  rcases mem_taking_offers.mp hoffer with rfl | hold
  · exact (hcut.not_settled hmem).elim
  · exact h.overtaken offer hold hmem

theorem waiting (node : NodeId) (hnode : (frontier.taking id link).cost node < unreached) :
    node ∈ settled ∨
      ⟨(frontier.taking id link).cost node, node⟩ ∈ (frontier.taking id link).offers := by
  rw [mem_taking_offers]
  rw [hcut.cost_eq h] at hnode ⊢
  split at hnode
  next hsame =>
    rw [if_pos hsame, hsame]
    exact .inr (.inl rfl)
  next hother =>
    rw [if_neg hother]
    exact (h.waiting node hnode).imp_right .inr

/-- The way back from the node to which the link leads goes through the link. -/
theorem traced_target : ∃ trail,
    (frontier.taking id link).Traces network start settled link.target trail ∧
      network.travelMs trail = frontier.cost link.source + link.travelMs ∧
      trail.length ≤ settled.length := by
  have hknown := h.cost_le link.target
  have hsooner := hcut.sooner
  obtain ⟨trail, htrail, hms, hlength⟩ := h.traced link.source (by omega)
  have hback := htrail.congr (fun _ hmem => hcut.lastLink?_settled h hmem) (fun _ hmem => hmem)
    (hcut.lastLink?_settled h hcut.source)
  have hlast : (frontier.taking id link).lastLink? link.target = some id := by
    rw [hcut.lastLink?_eq h, if_pos rfl]
  refine ⟨id :: trail, .link hlast hcut.found (hcut.target_ne_start h) hcut.source hback, ?_, ?_⟩
  · rw [Network.travelMs_cons hcut.found, hms, Nat.add_comm]
  · have hcount := List.length_erase_of_mem hcut.source
    have hpos := List.length_pos_of_mem hcut.source
    rw [List.length_cons]
    omega

/-- The other ones are as before. -/
theorem traced (node : NodeId) (hnode : (frontier.taking id link).cost node < unreached) :
    ∃ trail, (frontier.taking id link).Traces network start settled node trail ∧
      network.travelMs trail = (frontier.taking id link).cost node ∧
      trail.length ≤ (settled.erase node).length := by
  rw [hcut.cost_eq h] at hnode ⊢
  by_cases hsame : node = link.target
  · rw [if_pos hsame, hsame, List.erase_of_not_mem hcut.not_settled]
    exact hcut.traced_target h
  · rw [if_neg hsame] at hnode ⊢
    obtain ⟨trail, htrail, hknown⟩ := h.traced node hnode
    refine ⟨trail, htrail.congr (fun _ hmem => hcut.lastLink?_settled h hmem) (fun _ hmem => hmem)
      ?_, hknown⟩
    rw [hcut.lastLink?_eq h, if_neg hsame]

/-- A shortcut may be taken. -/
theorem explored : (frontier.taking id link).Explored network start settled where
  costs_size := by simpa [taking, improve] using h.costs_size
  links_size := by simpa [taking, improve] using h.links_size
  distinct := h.distinct
  known := h.known
  cost_start := by rw [hcut.cost_eq h, if_neg (hcut.target_ne_start h).symm, h.cost_start]
  cost_le node := ((hcut.improves h).cost_le node).trans (h.cost_le node)
  ordered := hcut.ordered h
  within offer hoffer := by
    rcases mem_taking_offers.mp hoffer with rfl | hold
    · exact hcut.target
    · exact h.within offer hold
  offered := hcut.offered h
  offer_lt offer hoffer := by
    rcases mem_taking_offers.mp hoffer with rfl | hold
    · exact Nat.lt_of_lt_of_le hcut.sooner (h.cost_le link.target)
    · exact h.offer_lt offer hold
  ahead := hcut.ahead h
  overtaken := hcut.overtaken h
  waiting := hcut.waiting h
  traced := hcut.traced h

end Shortcut

namespace Explored

/-- Offering a link from a settled node that takes the longest of all settled ones. -/
theorem relax (h : frontier.Explored network start settled) (hjoined : network.Joined)
    (hlink : network.links[id.index]? = some link) (hsource : link.source ∈ settled)
    (hlast : ∀ other ∈ settled, frontier.cost other ≤ frontier.cost link.source) :
    let frontier' := frontier.relax network (frontier.cost link.source) id
    frontier'.Explored network start settled ∧ frontier.Improves frontier' settled ∧
      frontier'.cost link.target ≤ min (frontier.cost link.source + link.travelMs) unreached ∧
      frontier'.offers.length ≤ frontier.offers.length + 1 := by
  have htarget : network.contains link.target = true := by
    simpa [Network.contains] using (hjoined link (Array.mem_of_getElem? hlink)).2
  have hbelow := h.cost_le link.target
  intro frontier'
  unfold frontier'
  rw [relax_eq hlink]
  split
  next hless =>
    have hms : min (frontier.cost link.source + link.travelMs) unreached =
        frontier.cost link.source + link.travelMs := by omega
    rw [hms] at hless ⊢
    have hcut : frontier.Shortcut network settled id link :=
      ⟨hlink, htarget, hsource, hlast, hless⟩
    refine ⟨hcut.explored h, hcut.improves h, ?_, ?_⟩
    · rw [← taking, hcut.cost_eq h, if_pos rfl]
    · simp [Frontier.improve]
  next hmore =>
    exact ⟨h, .refl _ _, Nat.le_of_not_lt hmore, Nat.le_succ _⟩

/-- Offering some links out of a settled node that takes the longest of all settled ones. -/
theorem relaxAll (h : frontier.Explored network start settled) (hjoined : network.Joined)
    (hnode : node ∈ settled) (hlast : ∀ other ∈ settled, frontier.cost other ≤ frontier.cost node)
    {ids : List LinkId}
    (hids : ∀ id ∈ ids, ∃ link, network.links[id.index]? = some link ∧ link.source = node) :
    let frontier' := ids.foldl (Frontier.relax network (frontier.cost node)) frontier
    frontier'.Explored network start settled ∧ frontier.Improves frontier' settled ∧
      (∀ id ∈ ids, ∀ link : Link R, network.links[id.index]? = some link →
        frontier'.cost link.target ≤ min (frontier.cost node + link.travelMs) unreached) ∧
      frontier'.offers.length ≤ frontier.offers.length + ids.length := by
  induction ids generalizing frontier with
  | nil => exact ⟨h, .refl _ _, by simp, Nat.le_refl _⟩
  | cons id rest ih =>
    obtain ⟨link, hlink, rfl⟩ := hids id List.mem_cons_self
    obtain ⟨h', himproves, htarget, hlength⟩ := h.relax hjoined hlink hnode hlast
    have hsame := himproves.cost_eq _ hnode
    have hrest := ih h' (fun other hmem => by
      rw [himproves.cost_eq other hmem, hsame]
      exact hlast other hmem) fun other hmem => hids other (List.mem_cons_of_mem id hmem)
    rw [hsame] at hrest
    obtain ⟨hlater, hlaterImproves, htargets, hlaterLength⟩ := hrest
    refine ⟨hlater, himproves.trans hlaterImproves, fun other hmem found hfound => ?_, ?_⟩
    · rcases List.mem_cons.mp hmem with rfl | hmem
      · cases hlink.symm.trans hfound
        exact (hlaterImproves.cost_le _).trans htarget
      · exact htargets other hmem found hfound
    · rw [List.length_cons]
      exact hlaterLength.trans (by omega)

/-! ## Taking up an offer -/

/-- An offer that has been overtaken is dropped. -/
theorem drop (h : frontier.Explored network start settled)
    (hoffers : frontier.offers = offer :: rest) (hstale : frontier.cost offer.node < offer.cost) :
    Explored { frontier with offers := rest } network start settled := by
  have hmem : ∀ other ∈ rest, other ∈ frontier.offers := fun other hother => by
    simp [hoffers, hother]
  exact {
    h with
    ordered := (List.pairwise_cons.mp (hoffers ▸ h.ordered)).2
    within := fun other hother => h.within other (hmem other hother)
    offered := fun other hother => h.offered other (hmem other hother)
    offer_lt := fun other hother => h.offer_lt other (hmem other hother)
    ahead := fun node hnode other hother => h.ahead node hnode other (hmem other hother)
    overtaken := fun other hother => h.overtaken other (hmem other hother)
    waiting := fun node hnode => by
      refine (h.waiting node hnode).imp_right fun hwaits => ?_
      rw [hoffers] at hwaits
      refine (List.mem_cons.mp hwaits).resolve_left fun heq => ?_
      rw [← heq] at hstale
      exact Nat.lt_irrefl _ hstale
    traced := fun node hnode => by
      obtain ⟨trail, htrail, hknown⟩ := h.traced node hnode
      exact ⟨trail, htrail.congr (fun _ _ => rfl) (fun _ hold => hold) rfl, hknown⟩ }

/-- The node of any other offer is settled by it. -/
theorem settle (h : frontier.Explored network start settled)
    (hoffers : frontier.offers = offer :: rest)
    (hfresh : ¬frontier.cost offer.node < offer.cost) :
    offer.node ∉ settled ∧ frontier.cost offer.node = offer.cost ∧
      Explored { frontier with offers := rest } network start (offer.node :: settled) := by
  have hturn : offer ∈ frontier.offers := by simp [hoffers]
  have hmem : ∀ other ∈ rest, other ∈ frontier.offers := fun other hother => by
    simp [hoffers, hother]
  obtain ⟨hfirst, hordered⟩ := List.pairwise_cons.mp (hoffers ▸ h.ordered)
  have hnew : offer.node ∉ settled := fun hold => hfresh (h.overtaken offer hturn hold)
  have hcost : frontier.cost offer.node = offer.cost :=
    Nat.le_antisymm (h.offered offer hturn) (Nat.le_of_not_lt hfresh)
  refine ⟨hnew, hcost, {
    h with
    distinct := List.nodup_cons.mpr ⟨hnew, h.distinct⟩
    known := ?_
    ordered := hordered
    within := fun other hother => h.within other (hmem other hother)
    offered := fun other hother => h.offered other (hmem other hother)
    offer_lt := fun other hother => h.offer_lt other (hmem other hother)
    ahead := ?_, overtaken := ?_, waiting := ?_, traced := ?_ }⟩
  · intro node hnode
    rcases List.mem_cons.mp hnode with rfl | hnode
    · exact h.within offer hturn
    · exact h.known node hnode
  · intro node hnode other hother
    rcases List.mem_cons.mp hnode with rfl | hnode
    · exact hcost.le.trans (Offer.cost_le_of_lt (hfirst other hother))
    · exact h.ahead node hnode other (hmem other hother)
  · intro other hother hnode
    by_cases hsame : other.node = offer.node
    · have hlater := hfirst other hother
      rw [Offer.lt_iff, hsame, Id.lt_iff] at hlater
      change frontier.cost other.node < other.cost
      rw [hsame, hcost]
      omega
    · exact h.overtaken other (hmem other hother) ((List.mem_cons.mp hnode).resolve_left hsame)
  · intro node hnode
    rcases h.waiting node hnode with hold | hwaits
    · exact .inl (List.mem_cons_of_mem _ hold)
    · rw [hoffers] at hwaits
      rcases List.mem_cons.mp hwaits with heq | hwaits
      · exact .inl (List.mem_cons.mpr (.inl (congrArg Offer.node heq)))
      · exact .inr hwaits
  · intro node hnode
    obtain ⟨trail, htrail, hms, hlength⟩ := h.traced node hnode
    refine ⟨trail, htrail.congr (fun _ _ => rfl) (fun _ hold => List.mem_cons_of_mem _ hold) rfl,
      hms, hlength.trans ?_⟩
    exact (List.sublist_cons_self _ _).erase node |>.length_le

end Explored

/-- Once a node is settled, its links are no longer counted. -/
theorem countP_not_mem (links : List (Link R)) (hnew : node ∉ settled) :
    (links.countP fun l => l.source ∉ settled) =
      (links.countP fun l => l.source = node) +
        links.countP fun l => l.source ∉ node :: settled := by
  induction links with
  | nil => rfl
  | cons link rest ih =>
    simp only [List.countP_cons, ih, List.mem_cons, decide_eq_true_eq]
    by_cases hnode : link.source = node
    · simp only [hnode, hnew, true_or, not_true_eq_false, not_false_eq_true, if_true, if_false]
      omega
    · simp only [hnode, false_or, if_false]
      omega

/-- Taking up an offer settles one node at most, and brings the end of the search nearer. -/
theorem Explored.passOn (h : frontier.Explored network start settled)
    (hrelaxed : frontier.Relaxed network settled) (hjoined : network.Joined)
    (hoffers : frontier.offers = offer :: rest) :
    let frontier' := Frontier.passOn network offer { frontier with offers := rest }
    ∃ settled', frontier'.Explored network start settled' ∧ frontier'.Relaxed network settled' ∧
      frontier'.remaining network settled' < frontier.remaining network settled ∧
      ∀ other ∈ settled', other = offer.node ∨ other ∈ settled := by
  intro frontier'
  unfold frontier' Frontier.passOn
  split
  next hstale =>
    exact ⟨settled, h.drop hoffers hstale, hrelaxed, by simp [remaining, hoffers],
      fun _ => .inr⟩
  next hfresh =>
    obtain ⟨hnew, hcost, hsettled⟩ := h.settle hoffers hfresh
    have hnode : offer.node.index < network.nodeCount := by
      simpa [Network.contains] using h.within offer (by simp [hoffers])
    have hlast : ∀ other ∈ offer.node :: settled,
        frontier.cost other ≤ frontier.cost offer.node := by
      intro other hother
      rcases List.mem_cons.mp hother with rfl | hold
      · exact Nat.le_refl _
      · exact hcost ▸ h.ahead other hold offer (by simp [hoffers])
    have hall := hsettled.relaxAll hjoined List.mem_cons_self hlast
      fun id hid => (Network.mem_outLinks hnode).mp hid
    have hsame : Frontier.cost { frontier with offers := rest } offer.node = offer.cost := hcost
    rw [hsame] at hall
    obtain ⟨hlater, himproves, htargets, hlength⟩ := hall
    refine ⟨offer.node :: settled, hlater, fun id link hlink hsource => ?_, ?_,
      fun _ => List.mem_cons.mp⟩
    · rw [himproves.cost_eq _ hsource]
      rcases List.mem_cons.mp hsource with heq | hold
      · have hid := (Network.mem_outLinks hnode).mpr ⟨link, hlink, heq⟩
        rw [heq, hsame]
        exact htargets id hid link hlink
      · exact (himproves.cost_le _).trans (hrelaxed id link hlink hold)
    · have hdegree := Network.outDegree_eq hnode
      have hcount := countP_not_mem network.links.toList hnew
      rw [Network.outLinks_length] at hlength
      simp only [remaining, hoffers, List.length_cons]
      dsimp only at hlength
      omega

/-! ## The way to the goal -/

/-- Every walk from the start leads to a settled node that takes no longer, or past an offer that
takes no longer. -/
theorem Explored.walk_le (h : frontier.Explored network start settled)
    (hrelaxed : frontier.Relaxed network settled) {links : List LinkId}
    (hwalk : network.Walk start links node) (hless : network.travelMs links < unreached) :
    node ∈ settled ∧ frontier.cost node ≤ network.travelMs links ∨
      ∃ offer ∈ frontier.offers, offer.cost ≤ network.travelMs links := by
  have hreach {other : NodeId} {ms : Nat} (hms : ms < unreached) (hle : frontier.cost other ≤ ms) :
      other ∈ settled ∧ frontier.cost other ≤ ms ∨ ∃ offer ∈ frontier.offers, offer.cost ≤ ms := by
    rcases h.waiting other (Nat.lt_of_le_of_lt hle hms) with hsettled | hwaits
    · exact .inl ⟨hsettled, hle⟩
    · exact .inr ⟨_, hwaits, hle⟩
  induction links using List.reverseRecOn generalizing node with
  | nil =>
    obtain rfl := hwalk.eq_of_nil
    exact hreach hless h.cost_start.le
  | append_singleton links id ih =>
    obtain ⟨link, hlink, hbefore, rfl⟩ := hwalk.of_concat
    have hms : network.travelMs (links ++ [id]) = network.travelMs links + link.travelMs := by
      rw [Network.travelMs_append, Network.travelMs_cons hlink, Network.travelMs_nil, Nat.add_zero]
    rw [hms] at hless ⊢
    rcases ih hbefore (by omega) with ⟨hsettled, hle⟩ | ⟨offer, hoffer, hle⟩
    · refine hreach hless ((hrelaxed id link hlink hsettled).trans ?_)
      omega
    · exact .inr ⟨offer, hoffer, hle.trans (Nat.le_add_right _ _)⟩

/-- Settled nodes and one more are no more than there are. -/
theorem Explored.length_lt (h : frontier.Explored network start settled) (hnew : node ∉ settled)
    (hknown : network.contains node = true) : settled.length < network.nodeCount := by
  have hdistinct : ((node :: settled).map Id.index).Nodup :=
    (List.nodup_cons.mpr ⟨hnew, h.distinct⟩).map fun a b hab => Id.eq_iff.mpr hab
  have hbelow : (node :: settled).map Id.index ⊆ List.range network.nodeCount := by
    intro i hi
    obtain ⟨other, hother, rfl⟩ := List.mem_map.mp hi
    rcases List.mem_cons.mp hother with rfl | hold
    · simpa [Network.contains] using hknown
    · simpa [Network.contains] using h.known other hold
  have hcount := (hdistinct.subperm hbelow).length_le
  simp only [List.map_cons, List.length_cons, List.length_map, List.length_range] at hcount
  exact hcount

end Frontier

/-- What a finding says about the walks from the start to the goal: there is none that can be told
from endless ones, or the one that is read off takes the least time. -/
def Finding.Answers (network : Network R) (start goal : NodeId) : Finding → Prop
  | exhausted => ∀ links, network.Walk start links goal → unreached ≤ network.travelMs links
  | reached cost frontier => cost < unreached ∧
    (∀ links, network.Walk start links goal → cost ≤ network.travelMs links) ∧
    ∃ trail, trace network start frontier network.nodeCount goal = some trail ∧
      network.Walk start trail.reverse goal ∧ network.travelMs trail = cost

variable {network : Network R} {start goal : NodeId}

/-- When it is the turn of the goal, its walk takes the least time. -/
theorem Frontier.Explored.reached {frontier : Frontier} {settled : List NodeId} {offer : Offer}
    {rest : List Offer} (h : frontier.Explored network start settled)
    (hrelaxed : frontier.Relaxed network settled) (hoffers : frontier.offers = offer :: rest)
    (hnew : offer.node ∉ settled) :
    (Finding.reached offer.cost frontier).Answers network start offer.node := by
  have hturn : offer ∈ frontier.offers := by simp [hoffers]
  have hless := h.offer_lt offer hturn
  have hfirst : ∀ other ∈ frontier.offers, offer.cost ≤ other.cost := by
    intro other hother
    rw [hoffers] at hother
    rcases List.mem_cons.mp hother with rfl | hrest
    · exact Nat.le_refl _
    · exact Offer.cost_le_of_lt ((List.pairwise_cons.mp (hoffers ▸ h.ordered)).1 other hrest)
  have hcost : frontier.cost offer.node = offer.cost := by
    have hle := h.offered offer hturn
    have hwaits := (h.waiting _ (Nat.lt_of_le_of_lt hle hless)).resolve_left hnew
    exact Nat.le_antisymm hle (hfirst _ hwaits)
  refine ⟨hless, fun links hwalk => ?_, ?_⟩
  · by_cases hms : network.travelMs links < unreached
    · rcases h.walk_le hrelaxed hwalk hms with ⟨hold, -⟩ | ⟨other, hother, hle⟩
      · exact (hnew hold).elim
      · exact (hfirst other hother).trans hle
    · omega
  · obtain ⟨trail, htrail, hms, hlength⟩ := h.traced _ (hcost ▸ hless)
    rw [List.erase_of_not_mem hnew] at hlength
    have hsteps := h.length_lt hnew (h.within offer hturn)
    exact ⟨trail, htrail.trace_eq (Nat.lt_of_le_of_lt hlength hsteps), htrail.walk,
      hms.trans hcost⟩

/-- A search that may still take up all remaining offers ends with a finding. -/
theorem search_ends (hjoined : network.Joined) {rounds : Nat} {frontier : Frontier}
    {settled : List NodeId} (h : frontier.Explored network start settled)
    (hrelaxed : frontier.Relaxed network settled) (hgoal : goal ∉ settled)
    (hrounds : frontier.remaining network settled < rounds) :
    ∃ finding, search network goal rounds frontier = some finding ∧
      finding.Answers network start goal := by
  induction rounds generalizing frontier settled with
  | zero => omega
  | succ rounds ih =>
    unfold search
    split
    next hnone =>
      refine ⟨.exhausted, rfl, fun links hwalk => Nat.le_of_not_lt fun hless => ?_⟩
      rcases h.walk_le hrelaxed hwalk hless with ⟨hold, -⟩ | ⟨offer, hoffer, -⟩
      · exact hgoal hold
      · simp [hnone] at hoffer
    next offer rest hoffers =>
      split
      next hturn =>
        subst hturn
        exact ⟨_, rfl, h.reached hrelaxed hoffers hgoal⟩
      next hother =>
        obtain ⟨settled', h', hrelaxed', hless, hsettled⟩ := h.passOn hrelaxed hjoined hoffers
        refine ih h' hrelaxed' (fun hmem => ?_) (by omega)
        exact (hsettled goal hmem).elim (Ne.symm hother) hgoal

/-- At the outset no node is settled. -/
theorem initial_explored (network : Network R) {start : NodeId}
    (hstart : network.contains start = true) :
    (initial network start).Explored network start [] := by
  have hbound : start.index < network.nodeCount := by simpa [Network.contains] using hstart
  have hcost (node : NodeId) :
      (initial network start).cost node = if node = start then 0 else unreached := by
    rw [Frontier.cost, initial, Frontier.getElem?_set (by simpa using hbound),
      Array.getElem?_replicate]
    split
    · rfl
    · split <;> rfl
  have honly : ∀ offer ∈ (initial network start).offers, offer = ⟨0, start⟩ := by
    simp [initial]
  exact {
    costs_size := by simp [initial]
    links_size := by simp [initial]
    distinct := List.nodup_nil
    known := by simp
    cost_start := by rw [hcost, if_pos rfl]
    cost_le := fun node => by
      rw [hcost]
      split <;> simp [unreached]
    ordered := List.pairwise_singleton _ _
    within := fun offer hoffer => by rwa [honly offer hoffer]
    offered := fun offer hoffer => by rw [honly offer hoffer, hcost, if_pos rfl]
    offer_lt := fun offer hoffer => by
      rw [honly offer hoffer]
      exact (by decide : 0 < unreached)
    ahead := by simp
    overtaken := by simp
    waiting := fun node hnode => by
      rw [hcost] at hnode ⊢
      split at hnode
      next hsame => simp [hsame, initial]
      next => exact (Nat.lt_irrefl _ hnode).elim
    traced := fun node hnode => by
      rw [hcost] at hnode ⊢
      split at hnode
      next hsame => exact ⟨[], hsame ▸ .start, by simp [hsame], Nat.zero_le _⟩
      next => exact (Nat.lt_irrefl _ hnode).elim }

/-- The search for a goal ends within two more rounds than there are links. -/
theorem exists_finding (hjoined : network.Joined) (hstart : network.contains start = true)
    (goal : NodeId) :
    ∃ finding, search network goal (network.linkCount + 2) (initial network start) =
      some finding ∧ finding.Answers network start goal := by
  refine search_ends hjoined (initial_explored network hstart) (fun _ _ _ hnone => ?_) (by simp) ?_
  · simp at hnone
  · have hcount := List.countP_le_length (p := fun l : Link R => decide (l.source ∉ []))
      (l := network.links.toList)
    simp only [Frontier.remaining, initial, List.length_singleton, Network.linkCount,
      Array.length_toList] at *
    omega

/-- The search and the way back both end: with a walk of least time, or without a walk that can be
told from endless ones. -/
theorem trail?_cases (hjoined : network.Joined) (hstart : network.contains start = true)
    (goal : NodeId) :
    (trail? network start goal = none ∧
      ∀ links, network.Walk start links goal → unreached ≤ network.travelMs links) ∨
    ∃ trail, trail? network start goal = some (network.travelMs trail, trail) ∧
      network.Walk start trail.reverse goal ∧ network.travelMs trail < unreached ∧
      ∀ links, network.Walk start links goal → network.travelMs trail ≤ network.travelMs links := by
  obtain ⟨finding, hsearch, hanswers⟩ := exists_finding hjoined hstart goal
  simp only [trail?, hsearch]
  cases finding with
  | exhausted => exact .inl ⟨rfl, hanswers⟩
  | reached cost frontier =>
    obtain ⟨hless, hleast, trail, htrail, hwalk, rfl⟩ := hanswers
    exact .inr ⟨trail, by simp [htrail], hwalk, hless, hleast⟩

/-! ## The router -/

/-- A route along a walk of least time that arrives when its last second is full. -/
structure IsLeast (network : Network R) (start goal : NodeId) (departure : Time)
    (found : Route R) : Prop where
  /-- It takes a link. -/
  links_ne_nil : found.links ≠ []
  /-- Each link begins where the one before it ends. -/
  walk : network.Walk start found.links goal
  /-- No walk takes less time. -/
  least : ∀ links, network.Walk start links goal →
    network.travelMs found.links ≤ network.travelMs links
  /-- The time is rounded up to seconds. -/
  arrival : found.arrival = departure.offset (ceilDiv (network.travelMs found.links) 1000)

/-- Between different nodes the router does what the search says. -/
theorem route_eq [Scalar R] (hstart : network.contains start = true)
    (hgoal : network.contains goal = true) (hother : start ≠ goal) (departure : Time) :
    route network start goal departure =
      ((trail? network start goal).map fun (cost, trail) =>
        .ok (routeOf network start goal departure cost trail)).getD
          (.error (.noRoute start goal)) := by
  simp only [route, Network.checkNode, hstart, hgoal, hother, if_true, if_false]
  cases trail? network start goal <;> rfl

/-- Between different nodes of a network there is a route exactly if there is a walk that can be
told from endless ones, and the route takes the least time. The search ends within two more rounds
than there are links, and the way back from what it reaches within as many steps as there are
nodes. -/
theorem route_isLeast [Scalar R] (network : Network R) (hjoined : network.Joined)
    {start goal : NodeId} (hstart : network.contains start = true)
    (hgoal : network.contains goal = true) (hother : start ≠ goal) (departure : Time) :
    ((∃ found, route network start goal departure = .ok found) ↔
      ∃ links, network.Walk start links goal ∧ network.travelMs links < unreached) ∧
    (∀ e, route network start goal departure = .error e → e = .noRoute start goal) ∧
    (∀ found, route network start goal departure = .ok found →
      IsLeast network start goal departure found) ∧
    ∃ finding, search network goal (network.linkCount + 2) (initial network start) = some finding ∧
      ∀ cost frontier, finding = .reached cost frontier →
        ∃ trail, trace network start frontier network.nodeCount goal = some trail := by
  have hends : ∃ finding,
      search network goal (network.linkCount + 2) (initial network start) = some finding ∧
        ∀ cost frontier, finding = .reached cost frontier →
          ∃ trail, trace network start frontier network.nodeCount goal = some trail := by
    obtain ⟨finding, hsearch, hanswers⟩ := exists_finding hjoined hstart goal
    refine ⟨finding, hsearch, fun cost frontier hreached => ?_⟩
    obtain ⟨-, -, trail, htrail, -⟩ := hreached ▸ hanswers
    exact ⟨trail, htrail⟩
  rw [route_eq hstart hgoal hother]
  rcases trail?_cases hjoined hstart goal with ⟨hnone, hfar⟩ | ⟨trail, hsome, hwalk, hless, hleast⟩
  · rw [hnone]
    refine ⟨⟨?_, fun ⟨links, hlinks, hnear⟩ => ?_⟩, ?_, nofun, hends⟩
    · rintro ⟨found, ⟨⟩⟩
    · exact absurd (hfar links hlinks) (Nat.not_le_of_lt hnear)
    · rintro e ⟨⟩
      rfl
  · have hms : network.travelMs trail.reverse = network.travelMs trail :=
      network.travelMs_reverse trail
    rw [hsome]
    refine ⟨⟨fun _ => ⟨trail.reverse, hwalk, hms ▸ hless⟩, fun _ => ⟨_, rfl⟩⟩, nofun, ?_, hends⟩
    rintro found ⟨⟩
    refine ⟨?_, hwalk, fun links hlinks => hms ▸ hleast links hlinks, ?_⟩
    · have hlinks := trail?_ne_nil hgoal (Ne.symm hother) hsome
      simpa [routeOf] using hlinks
    · simp only [routeOf, hms]

/-- Links that take no time lead from one node to another and back, and one from a node to itself; a
third node is further away. -/
def freeLoops : Network Rat :=
  ⟨#[⟨0, 0⟩, ⟨0, 0⟩, ⟨0, 0⟩],
    #[⟨⟨0⟩, ⟨1⟩, 100, 500⟩, ⟨⟨0⟩, ⟨1⟩, 100, 0⟩, ⟨⟨1⟩, ⟨0⟩, 100, 0⟩, ⟨⟨1⟩, ⟨1⟩, 100, 0⟩,
      ⟨⟨1⟩, ⟨2⟩, 100, 1500⟩],
    #[0, 2, 5, 5], by decide, by decide⟩

theorem route_isLeast_freeLoops :
    ∃ found, route freeLoops ⟨0⟩ ⟨2⟩ .zero = .ok found ∧
      IsLeast freeLoops ⟨0⟩ ⟨2⟩ .zero found ∧ freeLoops.travelMs found.links = 1500 ∧
      found.arrival = .ofSecs 2 := by
  have hjoined : freeLoops.Joined := by
    unfold Network.Joined
    decide
  have hleast := @route_isLeast Rat _ freeLoops hjoined ⟨0⟩ ⟨2⟩ (by decide) (by decide) (by decide)
    .zero
  have hok : (route freeLoops ⟨0⟩ ⟨2⟩ .zero).toOption.map
      (fun found => (freeLoops.travelMs found.links, found.arrival)) = some (1500, .ofSecs 2) := by
    decide +kernel
  cases hfound : route freeLoops ⟨0⟩ ⟨2⟩ .zero with
  | error e => simp [hfound, Except.toOption] at hok
  | ok found =>
    simp only [hfound, Except.toOption, Option.map_some, Option.some.injEq, Prod.mk.injEq] at hok
    exact ⟨found, rfl, hleast.2.2.1 found hfound, hok⟩

end DemandTransport.LeastTime
