import DemandTransport.Proofs.Dispatch.Evaluation
import DemandTransport.Proofs.Network.LeastTime

/-!
# The earliest plan

A vehicle may serve a request in its open idle time in many ways: along any walks, with waiting
before and between them. The evaluation looks at one of them only. For a vehicle without a battery
that is enough: if there is any way, a plan is found, and no way boards or alights earlier.
-/

namespace DemandTransport

variable {R : Type}

/-! ## Legs of least time -/

/-- A vehicle can go from one node to another in a number of seconds: at once if it is there, and
otherwise along a walk, in the seconds that are enough for it and in one at least. -/
def Network.Leg (network : Network R) (source target : NodeId) (secs : Nat) : Prop :=
  ∃ links, network.Walk source links target ∧ network.travelMs links < LeastTime.unreached ∧
    secs = if source = target then 0 else max 1 (ceilDiv (network.travelMs links) 1000)

theorem ceilDiv_le_ceilDiv {m n : Nat} (h : m ≤ n) (divisor : Nat) :
    ceilDiv m divisor ≤ ceilDiv n divisor :=
  Nat.div_le_div_right (by omega)

/-- A leg that takes a link takes at least a second. -/
theorem routeLeg?_eq_some [Scalar R] {network : Network R} {router : Router R}
    {source target : NodeId} {departure : Time} {found : Route R} {secs : Nat}
    (h : router network source target departure = .ok found) (hlinks : found.isTrivial = false)
    (hdeparture : found.departure = departure) (harrival : found.arrival = departure.offset secs) :
    routeLeg? network router source target departure =
      some { found with arrival := departure.offset (max 1 secs) } := by
  have hword := departure.secs_le
  unfold routeLeg?
  rw [h]
  dsimp only
  split
  next hstretched =>
    have hnow := hstretched.2
    rw [harrival, hdeparture] at hnow
    simp only [Time.le_iff, Time.secs_offset] at hnow
    rw [hdeparture]
    simp only [Option.some.injEq, Route.mk.injEq, Time.eq_iff, Time.secs_offset, true_and, and_true]
    omega
  next hkept =>
    have hlater : ¬found.arrival ≤ found.departure := fun hle => hkept ⟨by simp [hlinks], hle⟩
    have hsame : departure.offset (max 1 secs) = found.arrival := by
      rw [harrival, hdeparture] at hlater
      simp only [harrival, Time.le_iff, Time.eq_iff, Time.secs_offset] at *
      omega
    rw [hsame]

/-- A leg that takes the least time is planned, if a vehicle can go at all. -/
theorem LeastTime.routeLeg?_cases [Scalar R] {network : Network R} (hjoined : network.Joined)
    {source target : NodeId} (hsource : network.contains source = true)
    (htarget : network.contains target = true) (departure : Time) :
    (routeLeg? network route source target departure = none ∧
      ∀ secs, ¬network.Leg source target secs) ∨
    ∃ found secs, routeLeg? network route source target departure = some found ∧
      found.arrival = departure.offset secs ∧ network.Leg source target secs ∧
      ∀ other, network.Leg source target other → secs ≤ other := by
  by_cases hsame : source = target
  · subst hsame
    have hroute : route network source source departure = .ok (.atNode source departure) := by
      simp [route, Network.checkNode, hsource]
    have hleg : network.Leg source source 0 :=
      ⟨[], .nil _, by simp [LeastTime.unreached], by simp⟩
    refine .inr ⟨.atNode source departure, 0, ?_, ?_, hleg, fun _ _ => Nat.zero_le _⟩
    · simp [routeLeg?, hroute, Route.isTrivial, Route.atNode]
    · have := departure.secs_le
      simp only [Route.atNode, Time.eq_iff, Time.secs_offset]
      omega
  rcases trail?_cases hjoined hsource target with
    ⟨hnone, hfar⟩ | ⟨trail, hsome, hwalk, hless, hleast⟩
  · left
    constructor
    · simp [routeLeg?, route_eq hsource htarget hsame, hnone]
    · rintro secs ⟨links, hlinks, hnear, -⟩
      exact absurd (hfar links hlinks) (Nat.not_le_of_lt hnear)
  · right
    have hroute : route network source target departure =
        .ok (routeOf network source target departure (network.travelMs trail) trail) := by
      simp [route_eq hsource htarget hsame, hsome]
    have hlinks : (routeOf network source target departure (network.travelMs trail)
        trail).isTrivial = false := by
      simpa [routeOf, Route.isTrivial] using trail?_ne_nil htarget (Ne.symm hsame) hsome
    refine ⟨_, _, routeLeg?_eq_some hroute hlinks rfl rfl, rfl, ⟨trail.reverse, hwalk, ?_, ?_⟩, ?_⟩
    · rwa [network.travelMs_reverse]
    · rw [if_neg hsame, network.travelMs_reverse]
    · rintro other ⟨links, hother, -, rfl⟩
      rw [if_neg hsame]
      have := ceilDiv_le_ceilDiv (hleast links hother) 1000
      omega

/-- Where a vehicle can go, there is a leg. -/
theorem LeastTime.exists_routeLeg? [Scalar R] {network : Network R} (hjoined : network.Joined)
    {source target : NodeId} (hsource : network.contains source = true)
    (htarget : network.contains target = true) (departure : Time) {secs : Nat}
    (h : network.Leg source target secs) :
    ∃ found, routeLeg? network route source target departure = some found := by
  rcases routeLeg?_cases hjoined hsource htarget departure with ⟨-, hfar⟩ | ⟨found, _, hfound, -⟩
  · exact (hfar secs h).elim
  · exact ⟨found, hfound⟩

/-- A leg takes the least time in which a vehicle can go. -/
theorem LeastTime.routeLeg?_least [Scalar R] {network : Network R} (hjoined : network.Joined)
    {source target : NodeId} (hsource : network.contains source = true)
    (htarget : network.contains target = true) {departure : Time} {found : Route R}
    (h : routeLeg? network route source target departure = some found) :
    ∃ secs, found.arrival = departure.offset secs ∧ network.Leg source target secs ∧
      ∀ other, network.Leg source target other → secs ≤ other := by
  rcases routeLeg?_cases hjoined hsource htarget departure with
    ⟨hnone, -⟩ | ⟨_, secs, hsome, hleast⟩
  · rw [h] at hnone
    cases hnone
  · rw [h] at hsome
    cases hsome
    exact ⟨secs, hleast⟩

/-! ## Boarding -/

/-- Boarding begins as soon as the vehicle has arrived and the window is open. -/
theorem Request.boarding_earliest {request : Request} {arrival pickupAt : Time}
    {wait : List (Task R)} (hwindow : ∀ window ∈ request.window, window.earliest ≤ window.latest)
    (h : request.boarding arrival = (.ok (wait, pickupAt) :
      Except (RejectionReason R) (List (Task R) × Time))) :
    arrival ≤ pickupAt ∧
      (∀ window ∈ request.window, window.earliest ≤ pickupAt ∧ pickupAt ≤ window.latest) ∧
      ∀ secs, arrival.secs ≤ secs → (∀ window ∈ request.window, window.earliest.secs ≤ secs) →
        pickupAt.secs ≤ secs := by
  unfold boarding at h
  split at h
  next hnone =>
    cases h
    exact ⟨Nat.le_refl _, by simp [hnone], fun secs hsecs _ => hsecs⟩
  next window hsome =>
    have horder := hwindow window hsome
    have honly : ∀ other ∈ request.window, other = window := by simp [hsome]
    split at h
    · cases h
    next hopen =>
      split at h
      next hearly =>
        cases h
        refine ⟨Nat.le_of_lt hearly, fun other hother => ?_, fun secs _ hsecs => hsecs window hsome⟩
        rw [honly other hother]
        exact ⟨Nat.le_refl _, horder⟩
      next hlate =>
        cases h
        refine ⟨Nat.le_refl _, fun other hother => ?_, fun secs hsecs _ => hsecs⟩
        rw [honly other hother]
        exact ⟨Nat.le_of_not_lt hlate, Nat.le_of_not_lt hopen⟩

/-- A vehicle that arrives before the window closes is let to board. -/
theorem Request.exists_boarding {request : Request} {arrival : Time}
    (h : ∀ window ∈ request.window, arrival ≤ window.latest) :
    ∃ (wait : List (Task R)) (pickupAt : Time), request.boarding arrival =
      (.ok (wait, pickupAt) : Except (RejectionReason R) (List (Task R) × Time)) := by
  unfold boarding
  split
  · exact ⟨_, _, rfl⟩
  next window hsome =>
    have hopen : ¬window.latest < arrival := Nat.not_lt_of_le (h window hsome)
    rw [if_neg hopen]
    split <;> exact ⟨_, _, rfl⟩

/-! ## Itineraries -/

/-- When the parts of a trip take place, in seconds since the start of the scenario. -/
structure Itinerary where
  /-- When the vehicle leaves for the origin. -/
  leaves : Nat
  /-- When boarding begins. -/
  pickupAt : Nat
  /-- When the vehicle leaves for the destination. -/
  rides : Nat
  /-- When alighting begins. -/
  dropoffAt : Nat
  deriving DecidableEq, Repr

/-- A request can be served in open idle time at the times of an itinerary, along any walks and with
waiting anywhere. -/
structure Itinerary.Serves (trip : Itinerary) (ctx : DispatchContext R) (request : Request)
    (slot : Slot) : Prop where
  /-- The vehicle leaves when work may begin or later. -/
  leaves : slot.depart.secs ≤ trip.leaves
  /-- It is at the origin before boarding begins. -/
  approaches : ∃ secs, ctx.network.Leg slot.node request.origin secs ∧
    trip.leaves + secs ≤ trip.pickupAt
  /-- Boarding begins in the window. -/
  boards : ∀ window ∈ request.window,
    window.earliest.secs ≤ trip.pickupAt ∧ trip.pickupAt ≤ window.latest.secs
  /-- The vehicle waits until the passenger has boarded. -/
  boarded : trip.pickupAt + ctx.config.pickupSecs ≤ trip.rides
  /-- Alighting begins on arrival. -/
  arrives : ∃ secs, ctx.network.Leg request.origin request.destination secs ∧
    trip.dropoffAt = trip.rides + secs
  /-- The passenger has alighted before work has to be done. -/
  alights : trip.dropoffAt + ctx.config.dropoffSecs ≤ slot.limit.secs

/-- The itinerary of a plan: the vehicle leaves when work may begin, and again as soon as the
passenger has boarded. -/
def Insertion.itinerary (plan : Insertion R) (ctx : DispatchContext R) (slot : Slot) : Itinerary :=
  ⟨slot.depart.secs, plan.pickupAt.secs, plan.pickupAt.secs + ctx.config.pickupSecs,
    plan.dropoffAt.secs⟩

/-- Routes of least time are looked for, in a network that has all the nodes in question. -/
structure DispatchContext.Covers [Scalar R] (ctx : DispatchContext R) (request : Request)
    (slot : Slot) : Prop where
  router : ctx.router = LeastTime.route
  joined : ctx.network.Joined
  node : ctx.network.contains slot.node = true
  origin : ctx.network.contains request.origin = true
  destination : ctx.network.contains request.destination = true

namespace Vehicle

variable [Scalar R] {v : Vehicle R} {ctx : DispatchContext R} {request : Request} {slot : Slot}

/-- A vehicle without a battery needs no energy. -/
theorem powered_of_conventional (h : v.energy = none) (depart : Time) (tasks : List (Task R)) :
    v.powered depart tasks = .ok tasks := by
  simp [powered, profile?, h]

/-- The itinerary of a plan serves the request, and none boards or alights earlier. -/
theorem evaluate_least {plan : Insertion R} (hcovers : ctx.Covers request slot)
    (hslot : v.openSlot? ctx.now = some slot) (hlast : slot.limit < .last)
    (hwindow : ∀ window ∈ request.window, window.earliest ≤ window.latest)
    (h : v.evaluate ctx request = .ok plan) :
    (plan.itinerary ctx slot).Serves ctx request slot ∧
    ∀ trip : Itinerary, trip.Serves ctx request slot →
      plan.pickupAt.secs ≤ trip.pickupAt ∧ plan.dropoffAt.secs ≤ trip.dropoffAt := by
  obtain ⟨_, approach, ride, wait, f, hplan⟩ := evaluate_ok h
  cases hslot.symm.trans hplan.opens
  obtain ⟨there, harrival, hthere, hthereLeast⟩ := LeastTime.routeLeg?_least hcovers.joined
    hcovers.node hcovers.origin (hcovers.router ▸ hplan.approaches)
  obtain ⟨onward, halights, honward, honwardLeast⟩ := LeastTime.routeLeg?_least hcovers.joined
    hcovers.origin hcovers.destination (hcovers.router ▸ hplan.rides)
  obtain ⟨hboards, hopen, hsoonest⟩ := Request.boarding_earliest hwindow hplan.boards
  have hfits := hplan.fits
  rw [halights] at hfits
  rw [harrival] at hboards hsoonest
  have hdropoff : plan.dropoffAt.secs =
      ((plan.pickupAt.offset ctx.config.pickupSecs).offset onward).secs := by
    rw [hplan.alights, halights]
  simp only [Time.le_iff, Time.lt_iff, Time.secs_offset, Time.last] at *
  refine ⟨⟨Nat.le_refl _, ⟨there, hthere, ?_⟩, hopen, Nat.le_refl _, ⟨onward, honward, ?_⟩, ?_⟩,
    fun trip htrip => ?_⟩
  · dsimp only [Insertion.itinerary]
    omega
  · dsimp only [Insertion.itinerary]
    omega
  · dsimp only [Insertion.itinerary]
    omega
  · obtain ⟨secs, hsecs, happroach⟩ := htrip.approaches
    obtain ⟨secs', hsecs', hride⟩ := htrip.arrives
    have hleaves := htrip.leaves
    have hboarded := htrip.boarded
    have := hthereLeast secs hsecs
    have := honwardLeast secs' hsecs'
    have hpickup := hsoonest trip.pickupAt (by omega) fun window hw => (htrip.boards window hw).1
    omega

/-- If there is an itinerary, there is a plan. -/
theorem exists_plan_of_itinerary {trip : Itinerary} (hconventional : v.energy = none)
    (hseats : v.seats ≠ 0) (hcovers : ctx.Covers request slot)
    (hslot : v.openSlot? ctx.now = some slot) (hlast : slot.limit < .last)
    (hwindow : ∀ window ∈ request.window, window.earliest ≤ window.latest)
    (htrip : trip.Serves ctx request slot) : ∃ plan, v.evaluate ctx request = .ok plan := by
  obtain ⟨secs, hsecs, happroach⟩ := htrip.approaches
  obtain ⟨secs', hsecs', hride⟩ := htrip.arrives
  have hleaves := htrip.leaves
  have hboarded := htrip.boarded
  have halights := htrip.alights
  obtain ⟨approach, hfirst⟩ := LeastTime.exists_routeLeg? hcovers.joined hcovers.node
    hcovers.origin slot.depart hsecs
  obtain ⟨there, harrival, -, hthereLeast⟩ := LeastTime.routeLeg?_least hcovers.joined
    hcovers.node hcovers.origin hfirst
  have hthere := hthereLeast secs hsecs
  have hintime : ∀ window ∈ request.window, approach.arrival ≤ window.latest := by
    intro window hw
    have hlatest := (htrip.boards window hw).2
    simp only [harrival, Time.le_iff, Time.secs_offset]
    omega
  obtain ⟨wait, pickupAt, hboards⟩ := Request.exists_boarding (R := R) hintime
  obtain ⟨ride, hsecond⟩ := LeastTime.exists_routeLeg? hcovers.joined hcovers.origin
    hcovers.destination (pickupAt.offset ctx.config.pickupSecs) hsecs'
  obtain ⟨onward, hdropoff, -, honwardLeast⟩ := LeastTime.routeLeg?_least hcovers.joined
    hcovers.origin hcovers.destination hsecond
  have honward := honwardLeast secs' hsecs'
  obtain ⟨-, -, hsoonest⟩ := Request.boarding_earliest hwindow hboards
  have hpickup : pickupAt.secs ≤ trip.pickupAt := by
    refine hsoonest trip.pickupAt ?_ fun window hw => (htrip.boards window hw).1
    simp only [harrival, Time.secs_offset]
    omega
  refine exists_evaluate_ok hseats hslot (hcovers.router ▸ hfirst) hboards
    (hcovers.router ▸ hsecond) ?_ (powered_of_conventional hconventional _ _)
  simp only [hdropoff, Time.le_iff, Time.lt_iff, Time.secs_offset, Time.last] at *
  omega

/-- A vehicle without a battery that has open idle time finds a plan exactly if the request can be
served in it by some itinerary. The itinerary of the plan is then one of them, and none boards or
alights earlier. -/
theorem evaluate_earliest (hconventional : v.energy = none) (hseats : 1 ≤ v.seats)
    (hslot : v.openSlot? ctx.now = some slot) (hlast : slot.limit < .last)
    (hwindow : ∀ window ∈ request.window, window.earliest ≤ window.latest)
    (hcovers : ctx.Covers request slot) :
    ((∃ plan, v.evaluate ctx request = .ok plan) ↔
      ∃ trip : Itinerary, trip.Serves ctx request slot) ∧
    ∀ plan, v.evaluate ctx request = .ok plan →
      (plan.itinerary ctx slot).Serves ctx request slot ∧
      ∀ trip : Itinerary, trip.Serves ctx request slot →
        plan.pickupAt.secs ≤ trip.pickupAt ∧ plan.dropoffAt.secs ≤ trip.dropoffAt := by
  have hleast := fun plan => @evaluate_least R _ v ctx request slot plan hcovers hslot hlast hwindow
  refine ⟨⟨fun ⟨plan, hplan⟩ => ⟨_, (hleast plan hplan).1⟩, fun ⟨trip, htrip⟩ => ?_⟩, hleast⟩
  exact exists_plan_of_itinerary hconventional (Nat.one_le_iff_ne_zero.mp hseats) hcovers hslot
    hlast hwindow htrip

/-- A vehicle a second away from the origin waits for the window to open. Another window closes as
the vehicle sets out, and no itinerary serves that request. -/
theorem evaluate_earliest_freeLoops :
    let v : Vehicle Rat :=
      ⟨⟨0⟩, ⟨0⟩, .zero, .ofSecs 9000, 1, none, ⟨[Task.stay ⟨0⟩ .zero (.ofSecs 9000)]⟩⟩
    let ctx : DispatchContext Rat := ⟨LeastTime.freeLoops, LeastTime.route, {}, .ofSecs 60⟩
    let request : Request :=
      ⟨⟨0⟩, ⟨0⟩, ⟨1⟩, ⟨2⟩, .zero, some ⟨.ofSecs 100, .ofSecs 200⟩⟩
    let hurried : Request := { request with window := some ⟨.zero, .ofSecs 60⟩ }
    let slot : Slot := ⟨⟨0⟩, .ofSecs 60, .ofSecs 9000⟩
    v.openSlot? ctx.now = some slot ∧ ctx.Covers request slot ∧
      (∃ plan, v.evaluate ctx request = .ok plan ∧
        plan.pickupAt = .ofSecs 100 ∧ plan.dropoffAt = .ofSecs 222 ∧
        ∀ trip : Itinerary, trip.Serves ctx request slot →
          plan.pickupAt.secs ≤ trip.pickupAt ∧ plan.dropoffAt.secs ≤ trip.dropoffAt) ∧
      ¬∃ trip : Itinerary, trip.Serves ctx hurried slot := by
  intro v ctx request hurried slot
  have hslot : v.openSlot? ctx.now = some slot := by decide +kernel
  have hjoined : LeastTime.freeLoops.Joined := by
    unfold Network.Joined
    decide
  have hcovers : ctx.Covers request slot := ⟨rfl, hjoined, by decide, by decide, by decide⟩
  have hearliest := evaluate_earliest rfl (by decide) hslot (by decide) (by decide) hcovers
  have hhurried := @evaluate_earliest Rat _ v ctx hurried slot rfl (by decide) hslot (by decide)
    (by decide) ⟨rfl, hjoined, hcovers.node, hcovers.origin, hcovers.destination⟩
  refine ⟨hslot, hcovers, ?_, fun htrip => ?_⟩
  · have hok : (v.evaluate ctx request).toOption.map
        (fun plan => (plan.pickupAt, plan.dropoffAt)) = some (.ofSecs 100, .ofSecs 222) := by
      decide +kernel
    cases hplan : v.evaluate ctx request with
    | error e => simp [hplan, Except.toOption] at hok
    | ok plan =>
      simp only [hplan, Except.toOption, Option.map_some, Option.some.injEq, Prod.mk.injEq] at hok
      exact ⟨plan, rfl, hok.1, hok.2, (hearliest.2 plan hplan).2⟩
  · obtain ⟨plan, hplan⟩ := hhurried.1.mpr htrip
    have hnone : (v.evaluate ctx hurried).isOk = false := by decide +kernel
    simp [hplan, Except.isOk, Except.toBool] at hnone

end Vehicle

end DemandTransport
