import DemandTransport.Dispatch.Cycle
import DemandTransport.Proofs.Demand.Lifecycle
import DemandTransport.Proofs.Dispatch.Evaluation
import DemandTransport.Proofs.Fleet.Roster

/-!
# What dispatching does to the vehicles

Every plan that a cycle carries out was made by a vehicle of the fleet against the schedule that it
is written into. So a property of the vehicles that planning without new bookings keeps is kept by a
whole cycle, and one that planned charging sessions keep as well is kept by the planning of
sessions, however far they get.
-/

namespace DemandTransport

variable {R : Type} [Scalar R]

/-! ## Where plans come from -/

theorem toOption_eq_some {ε α : Type} {e : Except ε α} {a : α} :
    e.toOption = some a ↔ e = .ok a := by
  cases e <;> simp [Except.toOption]

theorem Dispatcher.cheapest_mem {plans : List (Insertion R)} {plan : Insertion R}
    (h : cheapest plans = some plan) : plan ∈ plans := by
  unfold cheapest at h
  refine (choice_mem (fun best item a ha => ?_) h).resolve_left (by simp)
  split at ha
  · exact .inr (Option.some.inj ha).symm
  · split at ha
    · exact .inr (Option.some.inj ha).symm
    · exact .inl ha

/-- The plans among the answers of some vehicles. -/
theorem Dispatcher.mem_plans {ctx : DispatchContext R} {request : Request}
    {vehicles : List (Vehicle R)} {plan : Insertion R} :
    plan ∈ plans (answers ctx request vehicles) ↔
      ∃ v ∈ vehicles, v.evaluate ctx request = .ok plan := by
  simp only [plans, answers, List.filterMap_map, List.mem_filterMap, Function.comp_apply,
    toOption_eq_some]

/-- The best plan for a request was made by the vehicle that it names. -/
theorem Dispatcher.bestInsertion_ok {policy : CandidatePolicy R} {ctx : DispatchContext R}
    {fleet : Fleet R} {request : Request} {plan : Insertion R} (hfleet : Numbered fleet.vehicles)
    (h : bestInsertion policy ctx fleet request = .ok plan) :
    ∃ a v b, fleet.vehicles = a ++ v :: b ∧ plan.vehicle = v.id ∧ a.length = v.id.index ∧
      v.evaluate ctx request = .ok plan := by
  unfold bestInsertion at h
  dsimp only at h
  split at h
  next best hbest =>
    cases h
    obtain ⟨v, hv, heval⟩ := mem_plans.mp (cheapest_mem hbest)
    obtain ⟨id, -, hid⟩ := List.mem_filterMap.mp hv
    obtain ⟨a, b, hsplit, hlength⟩ := Fleet.get_ok (toOption_eq_some.mp hid)
    rw [hsplit] at hfleet
    obtain ⟨_, _, _, _, _, hmade⟩ := Vehicle.evaluate_ok heval
    exact ⟨a, v, b, hsplit, hmade.vehicle, by rw [hfleet.id_eq], heval⟩
  next => cases h

/-! ## Actions on one vehicle -/

namespace Operation

variable {α : Type} {id : VehicleId} {action : Action (DispatchError R) (Vehicle R) α}
  {fleet : Fleet R} {post : α → Fleet R → Prop} {fail : DispatchError R → Fleet R → Prop}

omit [Scalar R] in
/-- An action on a vehicle of the fleet replaces it. -/
theorem onVehicle_ends {a b : List (Vehicle R)} {v : Vehicle R}
    (hsplit : fleet.vehicles = a ++ v :: b) (hid : a.length = id.index) :
    (onVehicle id action).Ends fleet post fail ↔
      action.Ends v (fun r v' => post r ⟨a ++ v' :: b⟩) fun e v' => fail e ⟨a ++ v' :: b⟩ := by
  unfold Action.Ends onVehicle
  simp only [Fleet.get_split hsplit hid, Fleet.set_split hsplit hid]
  cases action v <;> rfl

end Operation

/-! ## Properties that planning keeps -/

/-- A property of vehicles that planning without new bookings keeps. -/
structure Resilient (grid : StepGrid) (P : List (Vehicle R) → Prop) : Prop where
  /-- It holds of fleets in order only. -/
  numbered : ∀ {vs}, P vs → Numbered vs
  /-- And of valid schedules. -/
  valid : ∀ {vs}, P vs → ∀ v ∈ vs, v.schedule.ValidOver v.start v.finish
  /-- Planning for one vehicle keeps it. -/
  replanned : ∀ {a v b v'}, P (a ++ v :: b) → v.Replanned grid [] v' → P (a ++ v' :: b)

omit [Scalar R] in
/-- What planning keeps, given such a property, is one as well. -/
theorem Resilient.and {grid : StepGrid} {P Q : List (Vehicle R) → Prop} (hP : Resilient grid P)
    (hQ : ∀ {a v b v'}, P (a ++ v :: b) → Q (a ++ v :: b) → v.Replanned grid [] v' →
      Q (a ++ v' :: b)) : Resilient grid fun vs => P vs ∧ Q vs where
  numbered h := hP.numbered h.1
  valid h := hP.valid h.1
  replanned h hv := ⟨hP.replanned h.1 hv, hQ h.1 h.2 hv⟩

/-- Carrying out a plan books nothing. -/
theorem Vehicle.commit_replanned {grid : StepGrid} {ctx : DispatchContext R} {v : Vehicle R}
    {request : Request} {plan : Insertion R} (hvalid : v.schedule.ValidOver v.start v.finish)
    (h : v.evaluate ctx request = .ok plan) :
    (commit plan).Ends v (fun _ v' => v.Replanned grid [] v')
      fun _ v' => v.Replanned grid [] v' := by
  have hstays := evaluate_stays h
  have hbooks : plan.tasks.filterMap (Booking.ofTask? grid) = [] :=
    List.filterMap_eq_nil_iff.mpr fun task htask => Booking.ofTask?_eq_none (hstays task htask).2
  have hinsert := @insertAt_replanned R grid _ v v.start v.finish plan.depart plan.tasks hvalid
    fun task htask => (hstays task htask).1
  rwa [hbooks] at hinsert

namespace Dispatcher

variable {grid : StepGrid} {P : List (Vehicle R) → Prop} {op : Operation R}

/-- Serving a request books nothing. -/
theorem serve_keeps (hP : Resilient grid P) {policy : CandidatePolicy R} {ctx : DispatchContext R}
    {id : RequestId} (h : P op.fleet.vehicles) :
    (serve policy ctx id).Ends op (fun _ op' => P op'.fleet.vehicles)
      fun _ op' => P op'.fleet.vehicles := by
  simp only [serve, Operation.request, Action.ends_bind, Action.ends_mapError, Action.ends_ask,
    Action.ends_get]
  split
  next request hrequest =>
    split
    · exact h
    next plan hplan =>
      obtain ⟨a, v, b, hsplit, hvehicle, hlength, heval⟩ :=
        bestInsertion_ok (hP.numbered h) hplan
      rw [hsplit] at h
      have hcommit := @Vehicle.commit_replanned R _ grid ctx v request plan
        (hP.valid h v (by simp)) heval
      simp only [Operation.onFleet, Operation.onRequests, Action.ends_bind, Action.ends_within,
        Action.ends_mapError, Registry.InPlace.markPlanned_eq, Action.ends_change, hvehicle]
      rw [Operation.onVehicle_ends hsplit hlength]
      refine hcommit.mono (fun _ v' hv' => ?_) fun _ v' hv' => hP.replanned h hv'
      split <;> exact hP.replanned h hv'
  · exact h

theorem serveAll_keeps (hP : Resilient grid P) {policy : CandidatePolicy R}
    {ctx : DispatchContext R} {ids : List RequestId} (h : P op.fleet.vehicles) :
    (serveAll policy ctx ids).Ends op (fun _ op' => P op'.fleet.vehicles)
      fun _ op' => P op'.fleet.vehicles := by
  induction ids generalizing op with
  | nil => exact h
  | cons id rest ih =>
    simp only [serveAll, Action.ends_bind, Action.ends_pure]
    exact (serve_keeps hP h).mono (fun _ _ h' => ih h') fun _ _ h' => h'

omit [Scalar R] in
/-- Cancelling requests does nothing to the vehicles. -/
theorem cancelStale_fleet {config : DispatchConfig} {now : Time} {ids : List RequestId} :
    (cancelStale config now ids).Ends op (fun _ op' => op'.fleet = op.fleet)
      fun _ op' => op'.fleet = op.fleet := by
  induction ids generalizing op with
  | nil => rfl
  | cons id rest ih =>
    simp only [cancelStale, Operation.request, Operation.onRequests, Action.ends_bind,
      Action.ends_mapError, Action.ends_ask]
    split
    · split
      · exact ih
      · simp only [Action.ends_bind, Action.ends_mapError, Action.ends_within,
          Registry.InPlace.markCancelled_eq, Action.ends_change, Action.ends_pure]
        split
        · exact ih.mono (fun _ _ h => h) fun _ _ h => h
        · trivial
    · trivial

/-- A dispatch cycle keeps what planning without new bookings keeps. -/
theorem runCycle_keeps (hP : Resilient grid P) {dispatcher : Dispatcher R} {network : Network R}
    {router : Router R} {now : Time} (h : P op.fleet.vehicles) :
    (dispatcher.runCycle network router now).Ends op (fun _ op' => P op'.fleet.vehicles)
      fun _ op' => P op'.fleet.vehicles := by
  have hcancel : (cancelPending (R := R) dispatcher.config now).Ends op
      (fun _ op' => op'.fleet = op.fleet) fun _ op' => op'.fleet = op.fleet := by
    unfold cancelPending
    split
    · rfl
    · exact cancelStale_fleet
  simp only [runCycle, Action.ends_bind, Action.ends_get, Action.ends_pure]
  refine hcancel.mono (fun _ mid hmid => ?_) fun _ op' hop' => by rw [hop']; exact h
  exact (serveAll_keeps hP (by rw [hmid]; exact h)).mono (fun _ _ h' => h') fun _ _ h' => h'

end Dispatcher

/-! ## Planning of charging sessions -/

namespace ChargingPlanner

variable {planner : ChargingPlanner R} {network : Network R} {router : Router R} {now : Time}
  {pool : ChargerPool R}

/-- The booking of a session. -/
def bookingOf (planner : ChargingPlanner R) (session : Session R) : Booking :=
  .ofSession planner.grid session.assignment.charger session.assignment.start
    session.assignment.finish

/-- The tasks of a session book what the session does. -/
theorem session_books {bookings : List Booking} {v : Vehicle R} {session : Session R}
    (h : planner.sessionFor? network router now pool bookings v = some session) :
    session.tasks.filterMap (Booking.ofTask? planner.grid) = [planner.bookingOf session] ∧
      ∀ task ∈ session.tasks, task.kind.isDrive = true ∨ task.source = task.target := by
  obtain ⟨slot, charger, route, f, g, hsession⟩ := sessionFor?_eq_some h
  have hf := hsession.keepsDrives
  have hg := hsession.keepsCharge
  have hdrives : ∀ task ∈ route.drives.map f, task.kind.isDrive = true := by
    intro task htask
    obtain ⟨plain, hplain, rfl⟩ := List.mem_map.mp htask
    rw [hf.kind]
    exact route.drives_isDrive plain hplain
  rw [hsession.tasks]
  constructor
  · have hnone : (route.drives.map f).filterMap (Booking.ofTask? planner.grid) = [] := by
      refine List.filterMap_eq_nil_iff.mpr fun task htask =>
        Booking.ofTask?_eq_none fun charger hkind => ?_
      have hdrive := hdrives task htask
      simp [hkind, TaskKind.isDrive] at hdrive
    rw [List.filterMap_append, hnone, bookingOf, hsession.id, hsession.start]
    simp [Booking.ofTask?, hg.kind, hg.start, hg.finish, Task.charge]
  · intro task htask
    rcases List.mem_append.mp htask with hdrive | hcharge
    · exact .inl (hdrives task hdrive)
    · rw [List.mem_singleton.mp hcharge, hg.source, hg.target]
      exact .inr rfl

/-- A property of vehicles that planned sessions keep: each is planned against all bookings so
far. -/
structure Hospitable (planner : ChargingPlanner R) (network : Network R) (router : Router R)
    (now : Time) (pool : ChargerPool R) (P : List (Vehicle R) → Prop) : Prop where
  /-- It holds of valid schedules only. -/
  valid : ∀ {vs}, P vs → ∀ v ∈ vs, v.schedule.Valid
  /-- A session for one vehicle keeps it. -/
  session : ∀ {a v b v' bookings session}, P (a ++ v :: b) →
    ((a ++ v :: b).flatMap fun w => w.schedule.bookings planner.grid).Subperm bookings →
    planner.sessionFor? network router now pool bookings v = some session →
    v.Replanned planner.grid [planner.bookingOf session] v' → P (a ++ v' :: b)

/-- What planned sessions keep, given such a property, is one as well. -/
theorem Hospitable.and {P Q : List (Vehicle R) → Prop}
    (hP : Hospitable planner network router now pool P)
    (hQ : ∀ {a v b v' session}, P (a ++ v :: b) → Q (a ++ v :: b) →
      v.Replanned planner.grid [planner.bookingOf session] v' → Q (a ++ v' :: b)) :
    Hospitable planner network router now pool fun vs => P vs ∧ Q vs where
  valid h := hP.valid h.1
  session h hbookings hsession hv :=
    ⟨hP.session h.1 hbookings hsession hv, hQ h.1 h.2 hv⟩

variable {P : List (Vehicle R) → Prop} {fleet : Fleet R}

theorem planFor_keeps (hP : Hospitable planner network router now pool P) {bookings : List Booking}
    {ids : List VehicleId} (h : P fleet.vehicles)
    (hbookings : (Booking.ofFleet planner.grid fleet).Subperm bookings) :
    (planner.planFor network router now pool bookings ids).Ends fleet
      (fun _ fleet' => P fleet'.vehicles) fun _ fleet' => P fleet'.vehicles := by
  induction ids generalizing fleet bookings with
  | nil => exact h
  | cons id rest ih =>
    simp only [planFor, Action.ends_bind, Action.ends_mapError, Action.ends_ask]
    cases hget : fleet.get id with
    | error e => exact h
    | ok v =>
      dsimp only
      cases hsession : planner.sessionFor? network router now pool bookings v with
      | none => exact ih h hbookings
      | some session =>
        obtain ⟨a, b, hsplit, hlength⟩ := Fleet.get_ok hget
        rw [Schedule.ofFleet_eq, hsplit] at hbookings
        rw [hsplit] at h
        obtain ⟨hbooks, hstays⟩ := session_books hsession
        have hinsert := @Vehicle.insertAt_replanned R planner.grid _ v _ _ session.depart
          session.tasks ⟨hP.valid h v (by simp), rfl, rfl⟩ hstays
        rw [hbooks] at hinsert
        simp only [Action.ends_bind, Action.ends_pure]
        rw [Operation.onVehicle_ends hsplit hlength]
        refine hinsert.mono (fun _ v' hv' => ?_) fun _ v' hv' => hP.session h hbookings hsession hv'
        refine (ih (hP.session h hbookings hsession hv') ?_).mono (fun _ _ h' => h')
          fun _ _ h' => h'
        rw [Schedule.ofFleet_eq]
        exact hv'.fleet_books.trans
          (List.perm_append_comm.subperm.trans ((List.subperm_append_right _).mpr hbookings))

/-- Planning sessions keeps what every planned session keeps. -/
theorem plan_keeps (hP : Hospitable planner network router now pool P) (h : P fleet.vehicles) :
    (planner.plan network router now pool).Ends fleet
      (fun _ fleet' => P fleet'.vehicles) fun _ fleet' => P fleet'.vehicles := by
  unfold plan
  split
  · exact h
  · simp only [Action.ends_bind, Action.ends_get]
    exact planFor_keeps hP h (List.Subperm.refl _)

end ChargingPlanner

end DemandTransport
