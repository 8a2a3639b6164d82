import DemandTransport.Proofs.Dispatch.Agreement
import DemandTransport.Proofs.Dispatch.Commitment
import DemandTransport.Proofs.Dispatch.Cycle
import Mathlib.Logic.Relation

/-!
# The moves of dispatching

Dispatching changes vehicles and requests in three ways: a stale request is cancelled, a plan for a
request is written into the schedule of the vehicle that has made it, and a charging session is
written into the schedule of the vehicle for which it was found. Each of these moves keeps registry
and schedules in agreement.
-/

namespace DemandTransport

variable {R : Type} [Scalar R] {coming : List RequestId} {pool : ChargerPool R}

/-- One change that dispatching makes to vehicles and requests. -/
inductive Operation.Moves (ctx : DispatchContext R) (planner : ChargingPlanner R)
    (pool : ChargerPool R) (op : Operation R) : Operation R → Prop where
  /-- A stale request is cancelled. -/
  | cancel {id : RequestId} {entry : RequestEntry} {reason : CancelReason} {requests : Registry}
    (found : op.requests.find? id = some entry) (unplanned : entry.status = .unplanned)
    (stale : Dispatcher.staleReason? ctx.config ctx.now entry.request = some reason)
    (noted : op.requests.markCancelled id reason ctx.now = .ok requests) :
    op.Moves ctx planner pool ⟨op.fleet, requests⟩
  /-- A plan is carried out. -/
  | trip {id : RequestId} {entry : RequestEntry} {a b : List (Vehicle R)} {v v' : Vehicle R}
    {plan : Insertion R} {requests : Registry}
    (found : op.requests.find? id = some entry) (unplanned : entry.status = .unplanned)
    (vehicle : op.fleet.vehicles = a ++ v :: b)
    (evaluated : v.evaluate ctx entry.request = .ok plan)
    (committed : Vehicle.commit plan v = .ok () v')
    (noted : op.requests.markPlanned id plan.vehicle plan.pickupAt plan.dropoffAt =
      .ok requests) :
    op.Moves ctx planner pool ⟨⟨a ++ v' :: b⟩, requests⟩
  /-- A vehicle is sent to charge. -/
  | session {a b : List (Vehicle R)} {v v' : Vehicle R} {bookings : List Booking}
    {session : Session R} (vehicle : op.fleet.vehicles = a ++ v :: b)
    (found : planner.sessionFor? ctx.network ctx.router ctx.now pool bookings v = some session)
    (inserted : Vehicle.insertAt session.depart session.tasks v = .ok () v') :
    op.Moves ctx planner pool ⟨⟨a ++ v' :: b⟩, op.requests⟩

/-- The vehicles and the requests of an operation agree. -/
def Operation.Agrees (op : Operation R) (coming : List RequestId) (pool : ChargerPool R) : Prop :=
  Agreement coming op.fleet.vehicles pool op.requests

namespace Agreement

variable {a b vehicles : List (Vehicle R)} {v v' : Vehicle R} {requests requests' : Registry}
  {id : RequestId} {entry : RequestEntry}

omit [Scalar R] in
/-- An unplanned request, which no vehicle serves, can be cancelled. -/
theorem cancel (h : Agreement coming vehicles pool requests)
    (hfind : requests.find? id = some entry) (hstatus : entry.status = .unplanned)
    (reason : CancelReason) (t : Time) :
    ∃ requests', requests.markCancelled id reason t = .ok requests' ∧
      requests.Becomes requests'
        { entry with status := .cancelled reason, cancelledAt := some t } ∧
      Agreement coming vehicles pool requests' := by
  obtain ⟨requests', hmark, hbecomes⟩ := h.sound.markCancelled hfind (.inl hstatus) reason t
  have hentry : entry.id = id := Registry.find?_id hfind
  have hknown : (requests.find? entry.id).isSome := by simp [hentry, hfind]
  refine ⟨requests', hmark, hbecomes, h.becomes hbecomes hknown fun e => ?_⟩
  change _ = requests.stops e entry.id
  rw [hentry, Registry.stops_of_find hfind, RequestEntry.stops_eq_nil (by simp),
    RequestEntry.stops_eq_nil (by simp [hstatus])]

omit [Scalar R] in
/-- When an unplanned request is planned for a vehicle that has its two visits from then on, fleet
and registry still agree. -/
theorem plan
    (h : Agreement coming (a ++ v :: b) pool requests) (hfind : requests.find? id = some entry)
    (hstatus : entry.status = .unplanned) {pickup dropoff : Time}
    (hbecomes : requests.Becomes requests'
      { entry with
        status := .planned, vehicle := some v.id
        plannedPickup := some pickup, plannedDropoff := some dropoff })
    (hplanned : v.Replanned {} [] v') (hpaired : v'.schedule.Paired)
    (hvisits : ∀ e other, v'.schedule.visits e other =
      v.schedule.visits e other ++ if other = entry.id then [false] else []) :
    Agreement coming (a ++ v' :: b) pool requests' := by
  have hentry : entry.id = id := Registry.find?_id hfind
  have hknown : (requests.find? entry.id).isSome := by simp [hentry, hfind]
  have hwaits : entry.pickedUpAt = none := by
    rcases h.sound.isOpen hfind (.inl hstatus) with ⟨-, hnone⟩ | ⟨hplanned, -⟩
    · exact hnone
    · simp [hstatus] at hplanned
  refine h.revisit (h.roster.replanned hplanned (by simp)) (by rw [hplanned.same])
    (by rw [hplanned.same]) hpaired hbecomes hknown (fun e request hne => ?_) fun e => ?_
  · have hother : request ≠ entry.id := hne
    rw [hvisits, if_neg hother, List.append_nil]
  · have hnone : stops (a ++ v :: b) e entry.id = [] := by
      rw [h.agree, hentry, Registry.stops_of_find hfind,
        RequestEntry.stops_eq_nil (by simp [hstatus])]
    obtain ⟨hbefore, halone⟩ := stops_of_none hnone
    have hv' : v'.id = v.id := by rw [hplanned.same]
    change stops (a ++ v' :: b) e entry.id = _
    rw [stops_of_alone halone, hvisits, hbefore, hv', if_pos rfl]
    cases e <;> simp [RequestEntry.stops, RequestEntry.isDone, hwaits]

omit [Scalar R] in
/-- Every schedule ends before the last instant there is. -/
theorem finish_lt (h : Agreement coming (a ++ v :: b) pool requests) :
    v.schedule.finish < .last := by
  rw [h.roster.valid_at.ends]
  exact h.horizon v (by simp)

/-- A plan can be carried out on the vehicle that has made it, and the registry notes it. -/
theorem commit_ends {ctx : DispatchContext R} {plan : Insertion R}
    (h : Agreement coming (a ++ v :: b) pool requests)
    (hctx : Dispatcher.Ready ctx.config ctx.router) (hfind : requests.find? id = some entry)
    (hstatus : entry.status = .unplanned) (heval : v.evaluate ctx entry.request = .ok plan) :
    (Vehicle.commit plan).Ends v
      (fun _ v' => ∃ requests',
        requests.markPlanned id plan.vehicle plan.pickupAt plan.dropoffAt = .ok requests' ∧
        requests.Becomes requests'
          { entry with
            status := .planned, vehicle := some v.id
            plannedPickup := some plan.pickupAt, plannedDropoff := some plan.dropoffAt } ∧
        Agreement coming (a ++ v' :: b) pool requests')
      fun _ _ => False := by
  have hvalid := h.roster.valid_at
  obtain ⟨_, _, _, _, _, hplan⟩ := Vehicle.evaluate_ok heval
  have hcommit := (@Vehicle.commit_replanned R _ {} ctx v _ plan hvalid heval).and
    (Vehicle.commit_ends hctx hvalid.toValid h.finish_lt (h.paired v (by simp)) heval)
  obtain ⟨requests', hmark, hbecomes⟩ :=
    h.sound.markPlanned hfind hstatus v.id plan.pickupAt plan.dropoffAt
  refine hcommit.mono ?_ fun _ _ hfail => hfail.2
  rintro - v' ⟨hplanned, hpaired, hvisits⟩
  rw [hplan.vehicle]
  exact ⟨requests', hmark, hbecomes, h.plan hfind hstatus hbecomes hplanned hpaired hvisits⟩

/-- The session that was found for a vehicle can be planned, and no trip is touched. -/
theorem session_ends {planner : ChargingPlanner R} {network : Network R} {router : Router R}
    {now : Time} {bookings : List Booking} {session : Session R}
    (h : Agreement coming (a ++ v :: b) pool requests) (hrouter : router.Sound)
    (hsession : planner.sessionFor? network router now pool bookings v = some session) :
    (Vehicle.insertAt session.depart session.tasks).Ends v
      (fun _ v' => v'.id = v.id ∧ Agreement coming (a ++ v' :: b) pool requests)
      fun _ _ => False := by
  have hvalid := h.roster.valid_at
  obtain ⟨hbooks, hstays⟩ := ChargingPlanner.session_books hsession
  obtain ⟨_, charger, _, _, _, hmade⟩ := ChargingPlanner.sessionFor?_eq_some hsession
  have hnone := ChargingPlanner.session_request? hsession
  have hinsert := @Vehicle.insertAt_replanned R planner.grid _ v _ _ session.depart session.tasks
    hvalid hstays
  rw [hbooks] at hinsert
  have hends := hinsert.and (ChargingPlanner.session_written hrouter hvalid.toValid hsession)
  refine hends.mono ?_ fun _ _ hfail => hfail.2
  rintro - v' ⟨hplanned, _, _, _, _, _, hwritten, -⟩
  obtain ⟨hpaired, hvisits⟩ := hwritten.visits (h.paired v (by simp)) (Ride.after?_free hnone)
  have hid' : v'.id = v.id := by rw [hplanned.same]
  have hknown : (pool.find? charger.id).isSome :=
    ChargerPool.known_iff.mpr (List.mem_map_of_mem hmade.known)
  refine ⟨hid', h.replace (h.roster.replanned hplanned ?_) (by rw [hplanned.same]) hpaired h.sound
    (fun e request => ?_) h.unknown⟩
  · intro booking hbooking
    rw [List.mem_singleton.mp hbooking]
    simpa [ChargingPlanner.bookingOf, Booking.ofSession, hmade.id] using hknown
  · have hadded : Schedule.visits ⟨session.tasks⟩ e request = [] :=
      Schedule.visits_eq_nil fun task htask => by simp [hnone task htask]
    have hsame : v'.schedule.visits e request = v.schedule.visits e request := by
      rw [hvisits, hadded, List.append_nil]
    rw [stops_congr hid' hsame, h.agree]

end Agreement

namespace Operation

variable {ctx : DispatchContext R} {planner : ChargingPlanner R} {op op' : Operation R}

omit [Scalar R] in
theorem Agrees.split {a b : List (Vehicle R)} {v : Vehicle R} (h : op.Agrees coming pool)
    (hsplit : op.fleet.vehicles = a ++ v :: b) :
    Agreement coming (a ++ v :: b) pool op.requests := by
  rw [← hsplit]
  exact h

/-- A move keeps vehicles and requests in agreement. -/
theorem Moves.agrees (hmove : op.Moves ctx planner pool op')
    (hctx : Dispatcher.Ready ctx.config ctx.router) (h : op.Agrees coming pool) :
    op'.Agrees coming pool := by
  cases hmove with
  | cancel found unplanned _ noted =>
    obtain ⟨requests, hmark, -, hagree⟩ := Agreement.cancel h found unplanned _ ctx.now
    cases noted.symm.trans hmark
    exact hagree
  | trip found unplanned vehicle evaluated committed noted =>
    obtain ⟨requests, hmark, -, hagree⟩ :=
      ((h.split vehicle).commit_ends hctx found unplanned evaluated).of_ok committed
    cases noted.symm.trans hmark
    exact hagree
  | session vehicle found inserted =>
    exact (((h.split vehicle).session_ends hctx.router found).of_ok inserted).2

/-- A move replaces one vehicle at most. -/
theorem Moves.size (hmove : op.Moves ctx planner pool op') : op'.fleet.size = op.fleet.size := by
  cases hmove with
  | cancel => rfl
  | trip _ _ vehicle _ _ _ => simp [Fleet.size, vehicle]
  | session vehicle _ _ => simp [Fleet.size, vehicle]

theorem size_of_moves (hmoves : Relation.ReflTransGen (Moves ctx planner pool) op op') :
    op'.fleet.size = op.fleet.size := by
  induction hmoves with
  | refl => rfl
  | tail _ hmove ih => exact hmove.size.trans ih

/-- A whole sequence of moves keeps vehicles and requests in agreement. -/
theorem agrees_of_moves (hmoves : Relation.ReflTransGen (Moves ctx planner pool) op op')
    (hctx : Dispatcher.Ready ctx.config ctx.router) (h : op.Agrees coming pool) :
    op'.Agrees coming pool := by
  induction hmoves with
  | refl => exact h
  | tail _ hmove ih => exact hmove.agrees hctx ih

/-- So it keeps whatever each move keeps as long as they agree. -/
theorem keeps_of_moves {P : Operation R → Prop}
    (hP : ∀ {op op'}, op.Moves ctx planner pool op' → op.Agrees coming pool → P op → P op')
    (hmoves : Relation.ReflTransGen (Moves ctx planner pool) op op')
    (hctx : Dispatcher.Ready ctx.config ctx.router) (h : op.Agrees coming pool) (hop : P op) :
    P op' := by
  induction hmoves with
  | refl => exact hop
  | tail hbefore hmove ih => exact hP hmove (agrees_of_moves hbefore hctx h) ih

end Operation

end DemandTransport
