import DemandTransport.Proofs.Dispatch.Capacity
import DemandTransport.Proofs.Dispatch.Sessions
import DemandTransport.Proofs.Simulation.Calls

/-!
# What a call for charging sessions plans

The planner looks at each electric vehicle once. It either leaves the vehicle as it is or writes one
session into its schedule and reports it, so reports and new charging tasks correspond. A session is
written only while a plug is free at every instant that it may take, those planned before in the
same call being counted. So where a call takes plugs, no more are booked than there are, even if too
many were booked elsewhere.
-/

namespace DemandTransport

variable {R : Type}

/-- A planned charging task that is the one of a reported session at a charger of the pool. -/
structure ChargingAssignment.Tells (pool : ChargerPool R) (a : ChargingAssignment R)
    (task : Task R) : Prop where
  kind : task.kind = .charge a.charger
  status : task.status = .planned
  start : task.start = a.start
  finish : task.finish = a.finish
  energy : task.energy = some a.energy
  /-- The vehicle charges where the charger stands. -/
  place : ∃ charger ∈ pool.chargers, charger.id = a.charger ∧ task.source = charger.node ∧
    task.target = charger.node

/-- Whether a task holds a plug of a charger at an instant. A charging task that is not over holds
one from the step at or after its begin to the step at or after its end, both included. -/
def Task.holds (grid : StepGrid) (charger : ChargerId) (t : Time) (task : Task R) : Bool :=
  match task.kind with
  | .charge station => station == charger && task.status ≠ .performed &&
      grid.snap task.start ≤ t && t ≤ grid.snap task.finish
  | _ => false

/-- How many tasks of a fleet hold a plug of a charger at an instant. -/
def Fleet.held (grid : StepGrid) (charger : ChargerId) (t : Time) (fleet : Fleet R) : Nat :=
  (fleet.vehicles.flatMap fun v => v.schedule.tasks).countP (Task.holds grid charger t)

/-- Each task that holds a plug is a booking that does, and nothing else is. -/
theorem Fleet.held_eq (grid : StepGrid) (charger : ChargerId) (t : Time) (fleet : Fleet R) :
    fleet.held grid charger t = (booked grid fleet.vehicles).countP (Booking.covers charger t) := by
  have hbooked : booked grid fleet.vehicles =
      (fleet.vehicles.flatMap fun v => v.schedule.tasks).filterMap (Booking.ofOpen? grid) := by
    rw [List.filterMap_flatMap]
    rfl
  rw [hbooked, List.countP_filterMap, held]
  refine List.countP_congr fun task _ => ?_
  unfold Task.holds Booking.ofOpen? Booking.ofTask?
  by_cases hdone : task.status = .performed
  · cases task.kind <;> simp [hdone]
  · cases task.kind <;> simp [hdone, Booking.covers, Booking.ofSession]

variable [Scalar R]

/-- Writing tasks changes only the schedule of a vehicle. -/
theorem Vehicle.insertAt_same (depart : Time) (tasks : List (Task R)) (v : Vehicle R) :
    (insertAt depart tasks).Ends v (fun _ v' => v' = { v with schedule := v'.schedule })
      fun _ v' => v' = { v with schedule := v'.schedule } := by
  simp only [insertAt, onSchedule, Action.ends_bind, Action.ends_get, Action.ends_mapError,
    Action.ends_within]
  apply Action.Ends.of_forall <;> simp

namespace ChargingPlanner

variable {planner : ChargingPlanner R} {network : Network R} {router : Router R} {now : Time}
  {pool : ChargerPool R} {bookings : List Booking} {v v' : Vehicle R} {session : Session R}

/-! ## One vehicle -/

/-- A session charges the vehicle once, as its report tells. -/
theorem session_tells
    (h : planner.sessionFor? network router now pool bookings v = some session) :
    session.assignment.vehicle = v.id ∧
      ∃ task, session.tasks.filter Task.isCharge = [task] ∧ session.assignment.Tells pool task := by
  obtain ⟨slot, charger, route, f, g, hmade⟩ := sessionFor?_eq_some h
  have hg := hmade.keepsCharge
  have hdrives : (route.drives.map f).filter Task.isCharge = [] := by
    refine List.filter_eq_nil_iff.mpr fun task htask hcharge => ?_
    obtain ⟨plain, hplain, rfl⟩ := List.mem_map.mp htask
    obtain ⟨other, hkind⟩ := Task.isCharge_iff.mp hcharge
    have hdrive := route.drives_isDrive plain hplain
    rw [← hmade.keepsDrives.kind, hkind] at hdrive
    cases hdrive
  refine ⟨hmade.vehicle, _, ?_, ?_, hg.status _, ?_, hg.finish _, hmade.energy _,
    charger, hmade.known,
    hmade.id.symm, hg.source (Task.charge charger.id charger.node route.arrival _), hg.target _⟩
  · rw [hmade.tasks, List.filter_append, hdrives, List.nil_append]
    exact List.filter_cons_of_pos (Task.isCharge_iff.mpr ⟨charger.id, hg.kind _⟩)
  · rw [hg.kind, hmade.id]
    rfl
  · rw [hg.start, hmade.start]
    rfl

/-- No session begins before the present. -/
theorem session_future (hrouter : router.Sound)
    (h : planner.sessionFor? network router now pool bookings v = some session) :
    now ≤ session.assignment.start := by
  obtain ⟨slot, charger, route, f, g, hmade⟩ := sessionFor?_eq_some h
  obtain ⟨before, stay, hlies⟩ := Vehicle.openSlot?_eq_some hmade.opens
  have hfuture := hlies.future
  have harrival := (routeLeg?_joins hrouter hmade.drives).1.arrival
  rw [hmade.start]
  simp only [Time.le_iff] at *
  omega

/-- What planning does to a vehicle when it is its turn, and what is reported of it. -/
inductive Turn (planner : ChargingPlanner R) (network : Network R) (router : Router R) (now : Time)
    (pool : ChargerPool R) (v : Vehicle R) : Vehicle R → List (ChargingAssignment R) → Prop where
  /-- The vehicle is left as it is. -/
  | nothing : Turn planner network router now pool v v []
  /-- A session that is found for the vehicle is written into its schedule. -/
  | session {v' : Vehicle R} {bookings : List Booking} {session : Session R}
    (found : planner.sessionFor? network router now pool bookings v = some session)
    (written : Vehicle.insertAt session.depart session.tasks v = .ok () v') :
    Turn planner network router now pool v v' [session.assignment]

namespace Turn

variable {report : List (ChargingAssignment R)}

/-- The schedule gains the charging tasks of which the report tells, none of which begins before the
present, and nothing else of the vehicle changes. -/
theorem gains (hrouter : router.Sound) (hvalid : v.schedule.Valid)
    (h : planner.Turn network router now pool v v' report) :
    v' = { v with schedule := v'.schedule } ∧
      (∃ added, v'.schedule.charges = v.schedule.charges ++ added ∧
        List.Forall₂ (ChargingAssignment.Tells pool) report added) ∧
      ∀ a ∈ report, now ≤ a.start := by
  cases h with
  | nothing => exact ⟨rfl, ⟨[], by simp, .nil⟩, by simp⟩
  | session found written =>
    obtain ⟨_, before, stay, _, _, hwritten, -⟩ :=
      (session_written hrouter hvalid found).of_ok written
    obtain ⟨-, task, htask, htells⟩ := session_tells found
    have hcharges := Schedule.charges_appended hwritten.old hwritten.idle hwritten.new
      (Task.partBefore_isStay hwritten.idle _)
      (Schedule.leftover_isStay (Task.partFrom_isStay hwritten.idle _) _)
    rw [htask] at hcharges
    exact ⟨hwritten.same, ⟨[task], hcharges, .cons htells .nil⟩,
      by simpa using session_future hrouter found⟩

/-- A vehicle of which nothing is reported is left as it is. -/
theorem eq_of_nil (h : planner.Turn network router now pool v v' []) : v' = v := by
  cases h
  rfl

end Turn

/-! ## All vehicles -/

variable {fleet fleet' : Fleet R}

omit [Scalar R] in
/-- A report about another vehicle is none about this one. -/
theorem filter_vehicle_eq {a : ChargingAssignment R} {report : List (ChargingAssignment R)}
    (h : a.vehicle ≠ v.id) :
    ((a :: report).filter fun b => b.vehicle = v.id) =
      report.filter fun b => b.vehicle = v.id :=
  List.filter_cons_of_neg (by simpa using h)

/-- Each vehicle in its turn takes what is reported of it, and reports come in the order of the
turns. -/
theorem planFor_turns {ids : List VehicleId} (hnumbered : Numbered fleet.vehicles)
    (hids : ids.Nodup) :
    (planner.planFor network router now pool bookings ids).Ends fleet
      (fun report fleet' => (report.map ChargingAssignment.vehicle).Sublist ids ∧
        List.Forall₂ (fun v v' => planner.Turn network router now pool v v'
          (report.filter fun a => a.vehicle = v.id)) fleet.vehicles fleet'.vehicles)
      fun _ _ => True := by
  induction ids generalizing fleet bookings with
  | nil => exact ⟨.slnil, List.forall₂_same.mpr fun v _ => .nothing⟩
  | cons id rest ih =>
    obtain ⟨hid, hrest⟩ := List.nodup_cons.mp hids
    simp only [planFor, Action.ends_bind, Action.ends_mapError, Action.ends_ask]
    cases hget : fleet.get id with
    | error e => trivial
    | ok v =>
      dsimp only
      cases hsession : planner.sessionFor? network router now pool bookings v with
      | none =>
        refine (ih hnumbered hrest).mono ?_ fun _ _ h => h
        intro report fleet' h
        exact ⟨h.1.cons id, h.2⟩
      | some session =>
        obtain ⟨a, b, hsplit, hlength⟩ := Fleet.get_ok hget
        rw [hsplit] at hnumbered ⊢
        have hturn : v.id = id := by
          rw [hnumbered.id_eq, hlength]
        have hvehicle : session.assignment.vehicle = v.id := (session_tells hsession).1
        simp only [Action.ends_bind, Action.ends_pure]
        rw [Operation.onVehicle_ends hsplit hlength]
        refine (Vehicle.insertAt_same session.depart session.tasks v).with_run.mono ?_
          fun _ _ _ => trivial
        rintro ⟨⟩ v' ⟨hsame, hwritten⟩
        have hid' : v'.id = v.id := by rw [hsame]
        refine (ih (hnumbered.replace hid') hrest).mono ?_ fun _ _ h => h
        intro report fleet' h
        obtain ⟨hsublist, hturns⟩ := h
        have hnone : (report.filter fun a => a.vehicle = v.id) = [] := by
          refine List.filter_eq_nil_iff.mpr fun a ha heq => hid ?_
          have hmem := hsublist.subset (List.mem_map_of_mem ha)
          rwa [← hturn, ← of_decide_eq_true heq]
        constructor
        · rw [List.map_cons, hvehicle, hturn]
          exact hsublist.cons_cons id
        · refine forall₂_of_replace hturns ?_ ?_
          · intro u hu u' hu'
            have hne : session.assignment.vehicle ≠ u.id := by
              rw [hvehicle]
              exact (id_ne_of_nodup hnumbered.nodup hu).symm
            rwa [filter_vehicle_eq hne]
          · intro w hw
            rw [hid', hnone] at hw
            rw [List.filter_cons_of_pos (by simpa using hvehicle), hnone, hw.eq_of_nil]
            exact .session hsession hwritten

/-- So it is in a whole call, in which every electric vehicle has one turn. -/
theorem plan_turns (hnumbered : Numbered fleet.vehicles) :
    (planner.plan network router now pool).Ends fleet
      (fun report fleet' =>
        (report.map ChargingAssignment.vehicle).Sublist (fleet.vehicles.map Vehicle.id) ∧
        List.Forall₂ (fun v v' => planner.Turn network router now pool v v'
          (report.filter fun a => a.vehicle = v.id)) fleet.vehicles fleet'.vehicles)
      fun _ _ => True := by
  unfold plan
  split
  · exact ⟨List.nil_sublist _, List.forall₂_same.mpr fun v _ => .nothing⟩
  · have hids : (fleet.vehiclesOf Vehicle.isElectric).Sublist (fleet.vehicles.map Vehicle.id) :=
      List.filter_sublist.map _
    simp only [Action.ends_bind, Action.ends_get]
    refine (planFor_turns hnumbered (hnumbered.nodup.sublist hids)).mono ?_ fun _ _ h => h
    intro report fleet' h
    exact ⟨h.1.trans hids, h.2⟩

/-- Sessions keep it so that at each instant no more plugs are booked than within a limit or than
there are. -/
theorem hospitable_within (hpool : pool.Distinct) (limit : ChargerId → Time → Nat) :
    planner.Hospitable network router now pool fun vs =>
      (∀ v ∈ vs, v.schedule.Valid) ∧
      ∀ charger t, (booked planner.grid vs).countP (Booking.covers charger t) ≤ limit charger t ∨
        (booked planner.grid vs).countP (Booking.covers charger t) ≤ pool.plugs charger where
  valid h := h.1
  session {a v b v' bookings session} h hbookings hsession hv := by
    obtain ⟨hvalid, hcount⟩ := h
    constructor
    · have hold : v.schedule.ValidOver _ _ := ⟨hvalid v (by simp), rfl, rfl⟩
      exact forall_mem_replace hvalid (hv.schedule.valid hold).toValid
    · intro charger t
      have hbooked : (booked planner.grid (a ++ v' :: b)).countP (Booking.covers charger t) ≤
          ([planner.bookingOf session] ++ booked planner.grid (a ++ v :: b)).countP
            (Booking.covers charger t) := hv.fleet_books.countP_le _
      rcases countP_session_le hpool hbookings hsession charger t with hsame | hfree
      · exact (hcount charger t).imp (hbooked.trans hsame).trans (hbooked.trans hsame).trans
      · exact .inr (hbooked.trans hfree)

/-- A call never overbooks a plug. At each instant at which more tasks hold a plug of a charger
after it than before, no more hold one than there are, whatever was planned before. The charging
tasks that the schedules gain are those of the sessions reported, at most one for each vehicle, and
none begins before the present. -/
theorem plan_never_overbooks {report : List (ChargingAssignment R)} (hpool : pool.Distinct)
    (hnumbered : Numbered fleet.vehicles)
    (hvalid : ∀ v ∈ fleet.vehicles, v.schedule.validate = .ok ())
    (h : planner.plan network LeastTime.route now pool fleet = .ok report fleet') :
    (∀ charger t, fleet.held planner.grid charger t < fleet'.held planner.grid charger t →
      fleet'.held planner.grid charger t ≤ pool.plugs charger) ∧
    List.Forall₂ (fun v v' => v' = { v with schedule := v'.schedule } ∧ ∃ added,
      v'.schedule.charges = v.schedule.charges ++ added ∧
      List.Forall₂ (ChargingAssignment.Tells pool) (report.filter fun a => a.vehicle = v.id) added)
      fleet.vehicles fleet'.vehicles ∧
    (report.map ChargingAssignment.vehicle).Nodup ∧
    ∀ a ∈ report, now ≤ a.start ∧ ∃ v ∈ fleet.vehicles, v.id = a.vehicle := by
  have hsound : ∀ v ∈ fleet.vehicles, v.schedule.Valid := fun v hv =>
    Schedule.validate_eq_ok_iff.mp (hvalid v hv)
  obtain ⟨hreport, hturns⟩ := (plan_turns hnumbered).of_ok h
  have hgains := (List.forall₂_and_left _ _).mpr ⟨hsound, hturns⟩
  refine ⟨?_, ?_, hnumbered.nodup.sublist hreport, ?_⟩
  · intro charger t hmore
    let limit (charger : ChargerId) (t : Time) : Nat :=
      (booked planner.grid fleet.vehicles).countP (Booking.covers charger t)
    have hkeeps := (plan_keeps (hospitable_within hpool limit)
      ⟨hsound, fun _ _ => .inl (Nat.le_refl _)⟩).of_ok h
    rw [Fleet.held_eq, Fleet.held_eq] at hmore
    rw [Fleet.held_eq]
    exact (hkeeps.2 charger t).resolve_left (Nat.not_le_of_lt hmore)
  · refine hgains.imp fun v v' hv => ?_
    obtain ⟨hsame, hadded, -⟩ := hv.2.gains LeastTime.route_sound hv.1
    exact ⟨hsame, hadded⟩
  · intro a ha
    obtain ⟨v, hv, hid⟩ := List.mem_map.mp (hreport.subset (List.mem_map_of_mem ha))
    have hfuture : ∀ v ∈ fleet.vehicles, ∀ a ∈ report.filter fun a => a.vehicle = v.id,
        now ≤ a.start := by
      refine ((List.forall₂_and_left _ _).mp (hgains.imp fun v v' hv => ⟨?_, hv⟩)).1
      exact (hv.2.gains LeastTime.route_sound hv.1).2.2
    exact ⟨hfuture v hv a (List.mem_filter.mpr ⟨ha, by simpa using hid.symm⟩), v, hv, hid⟩

/-- Two vehicles need charge while a third one charges at one of two plugs. The first of them gets
the other plug for as long as it needs, and the second one none, though its turn is at the same
time. -/
theorem plan_never_overbooks_twoPlugs :
    let profile : EnergyProfile Rat := ⟨10, ⟨"flat", ⟨0, 1⟩, ⟨0, 1⟩, ⟨1, 1⟩, ⟨1, 1⟩⟩, 0, 0⟩
    let idle (start : Time) : Task Rat :=
      { Task.stay ⟨0⟩ start (.ofSecs 9000) with energy := some 0 }
    let charging : Task Rat :=
      { Task.charge ⟨0⟩ ⟨0⟩ .zero (.ofSecs 100) with energy := some 1, status := .started }
    let vehicle (id : Nat) (tasks : List (Task Rat)) : Vehicle Rat :=
      ⟨⟨id⟩, ⟨0⟩, .zero, .ofSecs 9000, 1, some ⟨profile, ⟨10, 1⟩⟩, ⟨tasks⟩⟩
    let fleet : Fleet Rat := ⟨[vehicle 0 [charging, idle (.ofSecs 100)],
      vehicle 1 [idle .zero], vehicle 2 [idle .zero]]⟩
    let pool : ChargerPool Rat := ⟨[⟨⟨0⟩, ⟨0⟩, 10, 2, [⟨0⟩]⟩]⟩
    let planner : ChargingPlanner Rat := ⟨.usual, ⟨.zero, 60⟩⟩
    ∃ report fleet', planner.plan .twoStops LeastTime.route .zero pool fleet = .ok report fleet' ∧
      report.map (fun a => (a.vehicle, a.start, a.finish)) = [(⟨1⟩, .zero, .ofSecs 2520)] ∧
      fleet'.held planner.grid ⟨0⟩ (.ofSecs 60) ≤ 2 := by
  intro profile idle charging vehicle fleet pool planner
  have hrun : (match planner.plan .twoStops LeastTime.route .zero pool fleet with
      | .ok report fleet' => some (report.map fun a => (a.vehicle, a.start, a.finish),
        fleet.held planner.grid ⟨0⟩ (.ofSecs 60), fleet'.held planner.grid ⟨0⟩ (.ofSecs 60))
      | .error _ _ => none) = some ([(⟨1⟩, .zero, .ofSecs 2520)], 1, 2) := by
    decide +kernel
  cases hplan : planner.plan .twoStops LeastTime.route .zero pool fleet with
  | error cause left => simp [hplan] at hrun
  | ok report fleet' =>
    simp only [hplan, Option.some.injEq, Prod.mk.injEq] at hrun
    obtain ⟨hreport, hbefore, hafter⟩ := hrun
    have hbooked := (plan_never_overbooks (by unfold ChargerPool.Distinct; decide)
      (by unfold Numbered; decide) (by decide +kernel) hplan).1 ⟨0⟩ (.ofSecs 60) (by omega)
    exact ⟨report, fleet', rfl, hreport, hbooked⟩

end ChargingPlanner

end DemandTransport
