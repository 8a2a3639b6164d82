import DemandTransport.Proofs.Dispatch.Moves
import DemandTransport.Proofs.Dispatch.Retraction

/-!
# Dispatching is made of moves

A dispatch cycle and the planning of charging sessions cannot fail, and both are sequences of moves:
the pending requests are unplanned, a plan can be carried out on the vehicle that has made it, and
the registry accepts that the request is planned. The same goes for a request that is taken back.
-/

namespace DemandTransport

variable {R : Type} [Scalar R] {coming : List RequestId} {pool : ChargerPool R}

open Relation (ReflTransGen)

namespace Dispatcher

variable {ctx : DispatchContext R} {op : Operation R} {id : RequestId} {entry : RequestEntry}

omit [Scalar R] in
/-- A registered request is found as it was submitted. -/
theorem request_ok {requests : Registry} (hfind : requests.find? id = some entry) :
    requests.request id = .ok entry.request := by
  simp [Registry.request, Registry.get, hfind, Except.map]

/-- Stale requests among some that are unplanned are cancelled one after the other. -/
theorem cancelStale_ends (ctx : DispatchContext R) (planner : ChargingPlanner R)
    {ids : List RequestId} (hctx : Ready ctx.config ctx.router) (h : op.Agrees coming pool)
    (hnodup : ids.Nodup)
    (hids : ∀ id ∈ ids, ∃ entry, op.requests.find? id = some entry ∧ entry.status = .unplanned) :
    (cancelStale ctx.config ctx.now ids).Ends op
      (fun _ op' => ReflTransGen (Operation.Moves ctx planner pool) op op')
      fun _ _ => False := by
  induction ids generalizing op with
  | nil => exact .refl
  | cons id rest ih =>
    obtain ⟨hid, hnodup⟩ := List.nodup_cons.mp hnodup
    obtain ⟨entry, hfind, hstatus⟩ := hids id List.mem_cons_self
    have hrest := fun other hother => hids other (List.mem_cons_of_mem id hother)
    simp only [cancelStale, Operation.request, Operation.onRequests, Action.ends_bind,
      Action.ends_mapError, Action.ends_ask, request_ok hfind]
    split
    · exact ih h hnodup hrest
    next reason hreason =>
      obtain ⟨requests', hmark, hbecomes, -⟩ := Agreement.cancel h hfind hstatus reason ctx.now
      have hentry : entry.id = id := Registry.find?_id hfind
      have hmove : op.Moves ctx planner pool ⟨op.fleet, requests'⟩ :=
        .cancel hfind hstatus hreason hmark
      simp only [Action.ends_bind, Action.ends_mapError, Action.ends_within,
        Registry.InPlace.markCancelled_eq, Action.ends_change, hmark, Action.ends_pure]
      refine (ih (hmove.agrees hctx h) hnodup fun other hother => ?_).mono
        (fun _ _ hlater => hlater.head hmove) fun _ _ h => h
      obtain ⟨found, hfound⟩ := hrest other hother
      refine ⟨found, ?_, hfound.2⟩
      have hne : other ≠ entry.id := fun heq => hid (hentry ▸ heq ▸ hother)
      exact (hbecomes.find other).trans ((if_neg hne).trans hfound.1)

/-- An unplanned request stays unplanned, or the best plan for it is carried out. -/
theorem serve_ends (planner : ChargingPlanner R) {policy : CandidatePolicy R}
    (hctx : Ready ctx.config ctx.router) (h : op.Agrees coming pool)
    (hfind : op.requests.find? id = some entry) (hstatus : entry.status = .unplanned) :
    (serve policy ctx id).Ends op
      (fun _ op' => ReflTransGen (Operation.Moves ctx planner pool) op op' ∧
        ∀ other, other ≠ id → op'.requests.find? other = op.requests.find? other)
      fun _ _ => False := by
  simp only [serve, Operation.request, Action.ends_bind, Action.ends_mapError, Action.ends_ask,
    Action.ends_get, request_ok hfind]
  split
  · exact ⟨.refl, fun _ _ => rfl⟩
  next plan hplan =>
    obtain ⟨a, v, b, hsplit, hvehicle, hlength, heval⟩ := bestInsertion_ok h.roster.numbered hplan
    have hagree := h.split hsplit
    obtain ⟨⟨⟩, v', hcommit, requests', hmark, hbecomes, -⟩ :=
      (hagree.commit_ends hctx hfind hstatus heval).exists_ok
    have hmove : op.Moves ctx planner pool ⟨⟨a ++ v' :: b⟩, requests'⟩ :=
      .trip hfind hstatus hsplit heval hcommit hmark
    simp only [Operation.onFleet, Operation.onRequests, Action.ends_bind, Action.ends_within,
      Action.ends_mapError, Registry.InPlace.markPlanned_eq, Action.ends_change, hmark,
      Action.ends_pure]
    rw [Operation.onVehicle_ends hsplit (hvehicle ▸ hlength)]
    refine Action.ends_of_run hcommit ⟨.single hmove, fun other hne => ?_⟩
    have hentry : entry.id = id := Registry.find?_id hfind
    exact (hbecomes.find other).trans (if_neg fun heq => hne (heq.trans hentry))

/-- Unplanned requests are served one after the other. -/
theorem serveAll_ends (planner : ChargingPlanner R) {policy : CandidatePolicy R}
    (hctx : Ready ctx.config ctx.router) {ids : List RequestId}
    (h : op.Agrees coming pool) (hnodup : ids.Nodup)
    (hids : ∀ id ∈ ids, ∃ entry, op.requests.find? id = some entry ∧ entry.status = .unplanned) :
    (serveAll policy ctx ids).Ends op
      (fun _ op' => ReflTransGen (Operation.Moves ctx planner pool) op op')
      fun _ _ => False := by
  induction ids generalizing op with
  | nil => exact .refl
  | cons id rest ih =>
    obtain ⟨hid, hnodup⟩ := List.nodup_cons.mp hnodup
    obtain ⟨entry, hfind, hstatus⟩ := hids id List.mem_cons_self
    simp only [serveAll, Action.ends_bind, Action.ends_pure]
    refine (serve_ends planner hctx h hfind hstatus).mono ?_ fun _ _ hfail => hfail
    rintro - mid ⟨hmoves, hothers⟩
    have hmid := Operation.agrees_of_moves hmoves hctx h
    refine (ih hmid hnodup fun other hother => ?_).mono
      (fun _ _ hlater => hmoves.trans hlater) fun _ _ h => h
    obtain ⟨found, hfound⟩ := hids other (List.mem_cons_of_mem id hother)
    exact ⟨found, (hothers other fun heq => hid (heq ▸ hother)).trans hfound.1, hfound.2⟩

/-- A dispatch cycle does not fail. -/
theorem runCycle_ends (planner : ChargingPlanner R) {dispatcher : Dispatcher R}
    {network : Network R} {router : Router R} {now : Time}
    (hready : Ready dispatcher.config router) (h : op.Agrees coming pool) :
    (dispatcher.runCycle network router now).Ends op
      (fun _ op' => ReflTransGen
        (Operation.Moves ⟨network, router, dispatcher.config, now⟩ planner pool) op op')
      fun _ _ => False := by
  have hcancel : (cancelPending (R := R) dispatcher.config now).Ends op
      (fun _ op' => ReflTransGen
        (Operation.Moves ⟨network, router, dispatcher.config, now⟩ planner pool) op op')
      fun _ _ => False := by
    unfold cancelPending
    split
    · exact .refl
    · exact cancelStale_ends ⟨network, router, dispatcher.config, now⟩ planner hready h
        h.sound.pending_nodup fun _ => h.sound.find_pending
  simp only [runCycle, Action.ends_bind, Action.ends_get, Action.ends_pure]
  refine hcancel.mono (fun _ mid hmoves => ?_) fun _ _ hfail => hfail
  have hmid := Operation.agrees_of_moves hmoves hready h
  exact (serveAll_ends planner hready hmid hmid.sound.pending_nodup fun _ =>
    hmid.sound.find_pending).mono (fun _ _ hlater => hmoves.trans hlater) fun _ _ hfail => hfail

end Dispatcher

namespace ChargingPlanner

variable {planner : ChargingPlanner R} {ctx : DispatchContext R} {fleet : Fleet R}
  {requests : Registry}

/-- The sessions for some vehicles of the fleet can be planned. -/
theorem planFor_ends (hctx : Dispatcher.Ready ctx.config ctx.router) {bookings : List Booking}
    {ids : List VehicleId} (h : Agreement coming fleet.vehicles pool requests)
    (hids : ∀ id ∈ ids, id ∈ fleet.vehicles.map Vehicle.id) :
    (planner.planFor ctx.network ctx.router ctx.now pool bookings ids).Ends fleet
      (fun _ fleet' => ReflTransGen (Operation.Moves ctx planner pool) ⟨fleet, requests⟩
        ⟨fleet', requests⟩) fun _ _ => False := by
  induction ids generalizing fleet bookings with
  | nil => exact .refl
  | cons id rest ih =>
    obtain ⟨v, hv, rfl⟩ := List.mem_map.mp (hids id List.mem_cons_self)
    have hrest := fun other hother => hids other (List.mem_cons_of_mem v.id hother)
    have hget := Fleet.get_id h.roster.numbered hv
    simp only [planFor, Action.ends_bind, Action.ends_mapError, Action.ends_ask, hget]
    cases hsession :
        planner.sessionFor? ctx.network ctx.router ctx.now pool bookings v with
    | none => exact ih h hrest
    | some session =>
      obtain ⟨a, b, hsplit, hlength⟩ := Fleet.get_ok hget
      have hagree : Agreement coming (a ++ v :: b) pool requests := hsplit ▸ h
      obtain ⟨⟨⟩, v', hinsert, hid, h'⟩ := (hagree.session_ends hctx.router hsession).exists_ok
      have hmove : Operation.Moves ctx planner pool ⟨fleet, requests⟩
          ⟨⟨a ++ v' :: b⟩, requests⟩ := .session hsplit hsession hinsert
      simp only [Action.ends_bind, Action.ends_pure]
      rw [Operation.onVehicle_ends hsplit hlength]
      refine Action.ends_of_run hinsert ((ih h' fun other hother => ?_).mono
        (fun _ _ hlater => hlater.head hmove) fun _ _ h => h)
      simpa [hsplit, hid] using hrest other hother

/-- Planning sessions does not fail. -/
theorem plan_ends (ctx : DispatchContext R) (hctx : Dispatcher.Ready ctx.config ctx.router)
    (h : Agreement coming fleet.vehicles pool requests) :
    (planner.plan ctx.network ctx.router ctx.now pool).Ends fleet
      (fun _ fleet' => ReflTransGen (Operation.Moves ctx planner pool) ⟨fleet, requests⟩
        ⟨fleet', requests⟩) fun _ _ => False := by
  unfold plan
  split
  · exact .refl
  · simp only [Action.ends_bind, Action.ends_get]
    refine planFor_ends hctx h fun id hid => ?_
    obtain ⟨v, hv, rfl⟩ := List.mem_map.mp hid
    exact List.mem_map_of_mem (List.mem_filter.mp hv).1

end ChargingPlanner

/-! ## Taking requests back -/

/-- The passenger of a request has begun to board. -/
def Boarding (vehicles : List (Vehicle R)) (request : RequestId) : Prop :=
  ∃ v ∈ vehicles, ∃ task ∈ v.schedule.tasks,
    task.kind = .pickup request ∧ task.status ≠ .planned

namespace Agreement

variable {a b : List (Vehicle R)} {v : Vehicle R} {requests : Registry} {entry : RequestEntry}
  {id : RequestId}

omit [Scalar R] in
/-- A vehicle that makes the only stops for a request has its trip. -/
theorem exists_trip (h : Agreement coming (a ++ v :: b) pool requests) {done : TripEnd → Bool}
    (hstops : ∀ e, stops (a ++ v :: b) e id = [(v.id, done e)]) :
    ∃ before ride after pickup dropoff, Trip v id before ride after pickup dropoff := by
  have hone (e : TripEnd) := stops_of_one h.roster.numbered (hstops e)
  obtain ⟨pickup, hpickup, hboards⟩ : ∃ pickup ∈ v.schedule.tasks,
      TripEnd.boarding.serves id pickup = true := by
    by_contra hnone
    have hvisits : v.schedule.visits .boarding id = [] :=
      Schedule.visits_eq_nil_iff.mpr fun task htask =>
        Bool.eq_false_iff.mpr fun hserves => hnone ⟨task, htask, hserves⟩
    exact absurd (hone .boarding).1 (by simp [hvisits])
  obtain ⟨before, rest, htasks⟩ := List.append_of_mem hpickup
  obtain ⟨ride, dropoff, after, -, trip⟩ := Trip.of_pickup (h.paired v (by simp))
    (fun e => by simp [(hone e).1]) htasks (TripEnd.serves_boarding.mp hboards)
  exact ⟨before, ride, after, pickup, dropoff, trip⟩

/-- As long as its passenger has not begun to board, a planned request is taken out of the schedule
of its vehicle and cancelled; afterwards nothing happens to the schedule. -/
theorem retract (h : Agreement coming (a ++ v :: b) pool requests)
    (hfind : requests.find? id = some entry) (hstatus : entry.status = .planned)
    (hvehicle : entry.vehicle = some v.id) (reason : CancelReason) (t : Time) :
    (Vehicle.retract id).Ends v
      (fun _ v' => ¬Boarding (a ++ v :: b) id ∧ v.schedule.Spares id v'.schedule ∧
        ∃ requests', requests.markCancelled id reason t = .ok requests' ∧
          requests.Becomes requests'
            { entry with status := .cancelled reason, cancelledAt := some t } ∧
          Agreement coming (a ++ v' :: b) pool requests')
      fun _ v' => Boarding (a ++ v :: b) id ∧ v' = v := by
  have hentry : entry.id = id := Registry.find?_id hfind
  have hknown : (requests.find? entry.id).isSome := by simp [hentry, hfind]
  have hstops (e : TripEnd) : stops (a ++ v :: b) e id = [(v.id, entry.isDone e)] := by
    rw [h.agree, Registry.stops_of_find hfind]
    simp [RequestEntry.stops, hstatus, hvehicle]
  obtain ⟨before, ride, after, pickup, dropoff, trip⟩ := h.exists_trip hstops
  have hretract := (@Vehicle.retract_replanned R {} _ v id).and
    (Vehicle.retract_ends trip h.roster.valid_at.toValid)
  obtain ⟨requests', hmark, hbecomes⟩ := h.sound.markCancelled hfind (.inr hstatus) reason t
  refine hretract.mono ?_ ?_
  · rintro - v' ⟨hplanned, hwaits, hpaired, hvisits, hspares⟩
    refine ⟨?_, hspares, requests', hmark, hbecomes,
      h.revisit (h.roster.replanned hplanned (by simp)) (by rw [hplanned.same])
        (by rw [hplanned.same]) hpaired hbecomes hknown (fun e request hne => ?_) fun e => ?_⟩
    · rintro ⟨w, hw, task, htask, hkind, hbegun⟩
      have hvisits := stops_eq_nil_iff.mp (stops_of_one h.roster.numbered (hstops .boarding)).2
      have hserves : TripEnd.boarding.serves id task = true := TripEnd.serves_boarding.mpr hkind
      simp only [List.mem_append, List.mem_cons] at hw
      rcases hw with hw | rfl | hw
      · simp [Schedule.visits_eq_nil_iff.mp (hvisits w (by simp [hw])) task htask] at hserves
      · exact hbegun (trip.eq_pickup htask hkind ▸ hwaits)
      · simp [Schedule.visits_eq_nil_iff.mp (hvisits w (by simp [hw])) task htask] at hserves
    · have hother : request ≠ id := fun heq => hne (heq.trans hentry.symm)
      rw [hvisits, if_neg hother]
    · change stops (a ++ v' :: b) e entry.id = _
      rw [hentry, stops_of_alone (stops_of_one h.roster.numbered (hstops e)).2, hvisits, if_pos rfl,
        RequestEntry.stops_eq_nil (by simp)]
      rfl
  · rintro - v' ⟨-, hbegun, rfl⟩
    exact ⟨⟨v', by simp, pickup, by simp [trip.tasks], trip.boards, hbegun⟩, rfl⟩

end Agreement

end DemandTransport
