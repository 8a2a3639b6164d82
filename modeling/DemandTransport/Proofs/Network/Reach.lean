import DemandTransport.Network.LeastTime
import Mathlib.Tactic.Tauto

/-!
# Routes lead where they should

A route that a sound router finds joins the nodes that were asked for, does not arrive before it
departs, and takes a link unless it may stay where it is. The router of least travel time is sound:
in its search, whatever is offered to be reached, except for the start, is reached through a link.
-/

namespace DemandTransport

variable {R : Type}

/-- No instant is before the one it is counted from, at the end of time either. -/
theorem Time.le_offset (t : Time) (secs : Nat) : t ≤ t.offset secs := by
  have := t.secs_le
  simp only [Time.le_iff, Time.secs_offset]
  omega

/-- A route from one node to another that departs at a time. -/
structure Route.Joins (route : Route R) (start goal : NodeId) (t : Time) : Prop where
  /-- It begins at the first node. -/
  source : route.source = start
  /-- It ends at the second one. -/
  target : route.target = goal
  /-- It departs at the time. -/
  departure : route.departure = t
  /-- It does not arrive before. -/
  arrival : t ≤ route.arrival
  /-- Without a link it stays where it is and takes no time. -/
  trivial : route.isTrivial = true → start = goal ∧ route.arrival = t

/-- A router all of whose routes join the nodes that were asked for. -/
def Router.Sound (router : Router R) : Prop :=
  ∀ network start goal departure route, router network start goal departure = .ok route →
    route.Joins start goal departure

namespace LeastTime

/-! ## Offers -/

namespace Offer

@[simp] theorem mem_enqueue {offer other : Offer} {offers : List Offer} :
    other ∈ enqueue offer offers ↔ other = offer ∨ other ∈ offers := by
  induction offers with
  | nil => simp [enqueue]
  | cons next rest ih =>
    unfold enqueue
    split
    · rw [List.mem_cons, ih, List.mem_cons]
      tauto
    · rw [List.mem_cons]

end Offer

/-! ## Links by which nodes are reached -/

namespace Frontier

variable {frontier : Frontier} {network : Network R} {start : NodeId}

/-- The nodes that are offered to be reached have links by which they are reached. -/
structure Linked (frontier : Frontier) (network : Network R) (start : NodeId) : Prop where
  /-- There is a place for the link of each node. -/
  size : frontier.lastLinks.size = network.nodeCount
  /-- The start and what is no node of the network need no link. -/
  linked : ∀ offer ∈ frontier.offers, offer.node ≠ start → network.contains offer.node = true →
    (frontier.lastLink? offer.node).isSome

/-- Taking a link notes it for the node that it offers. -/
theorem Linked.relax (h : frontier.Linked network start) (cost : Nat) (id : LinkId) :
    (frontier.relax network cost id).Linked network start := by
  obtain ⟨hsize, hlinked⟩ := h
  unfold Frontier.relax
  split
  next link hlink =>
    dsimp only
    split
    next hless =>
      refine ⟨by simpa using hsize, fun offer hoffer hother hcontains => ?_⟩
      have hbound : offer.node.index < frontier.lastLinks.size := by
        rw [hsize]
        simpa [Network.contains] using hcontains
      unfold lastLink?
      by_cases hnode : link.target.index = offer.node.index
      · simp [← hnode, hnode ▸ hbound]
      · rw [Array.getElem?_setIfInBounds_ne hnode]
        rcases Offer.mem_enqueue.mp hoffer with rfl | hold
        · exact (hnode rfl).elim
        · exact hlinked offer hold hother hcontains
    next => exact ⟨hsize, hlinked⟩
  next => exact ⟨hsize, hlinked⟩

/-- So does taking the links out of a node one after the other. -/
theorem Linked.relaxAll (h : frontier.Linked network start) (cost : Nat) (links : List LinkId) :
    (links.foldl (Frontier.relax network cost) frontier).Linked network start := by
  induction links generalizing frontier with
  | nil => exact h
  | cons id rest ih => exact ih (h.relax cost id)

theorem Linked.passOn (h : frontier.Linked network start) (offer : Offer) :
    (frontier.passOn network offer).Linked network start := by
  unfold Frontier.passOn
  split
  · exact h
  · exact h.relaxAll offer.cost _

end Frontier

/-- At first only the start is offered. -/
theorem initial_linked (network : Network R) (start : NodeId) :
    (initial network start).Linked network start := by
  refine ⟨by simp [initial], fun offer hoffer hother => ?_⟩
  rw [initial, List.mem_singleton] at hoffer
  exact (hother (by rw [hoffer])).elim

/-- Where a search reaches a goal of the network other than the start, there is a link by which it
is reached. -/
theorem search_linked {network : Network R} {start goal : NodeId} {rounds : Nat}
    {frontier last : Frontier} {cost : Nat} (h : frontier.Linked network start)
    (hgoal : network.contains goal = true) (hother : goal ≠ start)
    (hsearch : search network goal rounds frontier = some (.reached cost last)) :
    (last.lastLink? goal).isSome := by
  induction rounds generalizing frontier with
  | zero => cases hsearch
  | succ rounds ih =>
    unfold search at hsearch
    split at hsearch
    next => cases hsearch
    next offer rest hoffers =>
      split at hsearch
      next hturn =>
        cases hsearch
        exact hturn ▸ h.linked offer (by simp [hoffers]) (hturn ▸ hother) (hturn ▸ hgoal)
      next =>
        have hrest : Frontier.Linked { frontier with offers := rest } network start :=
          ⟨h.size, fun other hmem => h.linked other (by simp [hoffers, hmem])⟩
        exact ih (hrest.passOn offer) hsearch

/-- A walk to a goal other than the start takes a link. -/
theorem trail?_ne_nil {network : Network R} {start goal : NodeId} {cost : Nat}
    {trail : List LinkId} (hgoal : network.contains goal = true) (hother : goal ≠ start)
    (h : trail? network start goal = some (cost, trail)) : trail ≠ [] := by
  unfold trail? at h
  split at h
  next cost frontier hsearch =>
    obtain ⟨id, hid⟩ := Option.isSome_iff_exists.mp
      (search_linked (initial_linked network start) hgoal hother hsearch)
    obtain ⟨walk, hwalk, hsame⟩ := Option.map_eq_some_iff.mp h
    cases hsame
    cases hsteps : network.nodeCount with
    | zero => simp [hsteps, trace] at hwalk
    | succ steps =>
      rw [hsteps, trace, if_neg hother, hid] at hwalk
      obtain ⟨link, -, hwalk⟩ := Option.bind_eq_some_iff.mp hwalk
      obtain ⟨before, -, hbefore⟩ := Option.map_eq_some_iff.mp hwalk
      simp [← hbefore]
  next => cases h

/-- The router of least travel time is sound. -/
theorem route_sound [Scalar R] : Router.Sound (route : Router R) := by
  intro network start goal departure found h
  unfold route at h
  split at h
  · cases h
  · cases h
  next hgoal =>
    split at h
    next hsame =>
      cases h
      exact ⟨rfl, hsame, rfl, Nat.le_refl _, fun _ => ⟨hsame, rfl⟩⟩
    next hother =>
      split at h
      next cost trail htrail =>
        cases h
        refine ⟨rfl, rfl, rfl, Time.le_offset _ _, fun htrivial => ?_⟩
        have hnil : trail = [] := by simpa [routeOf, Route.isTrivial] using htrivial
        have hcontains : network.contains goal = true := by
          unfold Network.checkNode at hgoal
          split at hgoal
          · assumption
          · cases hgoal
        exact (trail?_ne_nil hcontains (Ne.symm hother) htrail hnil).elim
      next => cases h

end LeastTime

end DemandTransport
