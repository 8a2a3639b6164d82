import DemandTransport.Proofs.Dispatch.Accounting
import DemandTransport.Proofs.Dispatch.Commitment
import DemandTransport.Proofs.Dispatch.Retraction
import DemandTransport.Proofs.Execution.Telling

/-!
# Charging sessions in schedules

A charging task gets into a schedule when a session is planned and never gets out again: trips are
written beside it, and a trip that is taken back leaves it where it is. Execution ends it. So the
charging tasks of all vehicles can be counted by counting the sessions of the reports, and the ones
that are over by counting the events that tell of their ends.
-/

namespace DemandTransport

variable {R : Type}

/-- Whether a vehicle charges during a task. -/
def Task.isCharge (task : Task R) : Bool :=
  match task.kind with
  | .charge _ => true
  | _ => false

theorem Task.isCharge_iff {task : Task R} :
    task.isCharge = true ↔ ∃ charger, task.kind = .charge charger := by
  unfold isCharge
  cases task.kind <;> simp

namespace Schedule

/-- The charging tasks of a schedule. -/
def charges (s : Schedule R) : List (Task R) := s.tasks.filter Task.isCharge

/-- Idle time holds no charging task. -/
theorem filter_isCharge_idle {tasks : List (Task R)} (h : ∀ task ∈ tasks, task.isStay = true) :
    tasks.filter Task.isCharge = [] := by
  refine List.filter_eq_nil_iff.mpr fun task htask hcharge => ?_
  obtain ⟨charger, hkind⟩ := Task.isCharge_iff.mp hcharge
  simpa [Task.isStay, hkind, TaskKind.isStay] using h task htask

/-- Tasks that are written between stretches of idle time at the end of a schedule add the charging
tasks among them. -/
theorem charges_appended {s s' : Schedule R} {before head tasks rest : List (Task R)}
    {stay : Task R} (hs : s.tasks = before ++ [stay]) (hstay : stay.isStay = true)
    (hs' : s'.tasks = before ++ head ++ tasks ++ rest) (hhead : ∀ task ∈ head, task.isStay = true)
    (hrest : ∀ task ∈ rest, task.isStay = true) :
    s'.charges = s.charges ++ tasks.filter Task.isCharge := by
  have hlast : [stay].filter Task.isCharge = [] := filter_isCharge_idle (by simpa using hstay)
  rw [charges, charges, hs, hs', List.filter_append, List.filter_append, List.filter_append,
    List.filter_append, filter_isCharge_idle hhead, filter_isCharge_idle hrest, hlast]
  simp

/-- How far each charging task of a schedule has been executed. -/
def sessions (s : Schedule R) : List TaskStatus := (s.tasks.filter Task.isCharge).map Task.status

@[simp] theorem sessions_append (a b : List (Task R)) :
    sessions ⟨a ++ b⟩ = sessions ⟨a⟩ ++ sessions ⟨b⟩ := by
  simp [sessions]

theorem sessions_cons (task : Task R) (rest : List (Task R)) :
    sessions ⟨task :: rest⟩ = (if task.isCharge then [task.status] else []) ++ sessions ⟨rest⟩ := by
  cases hcharge : task.isCharge <;> simp [sessions, hcharge]

/-- Tasks that do not charge hold no session. -/
theorem sessions_eq_nil {tasks : List (Task R)} (h : ∀ task ∈ tasks, ∀ c, task.kind ≠ .charge c) :
    sessions ⟨tasks⟩ = [] := by
  rw [sessions, List.filter_eq_nil_iff.mpr fun task htask => ?_, List.map_nil]
  rw [Task.isCharge_iff]
  exact fun ⟨charger, hkind⟩ => h task htask charger hkind

theorem sessions_idle {tasks : List (Task R)} (h : ∀ task ∈ tasks, task.isStay = true) :
    sessions ⟨tasks⟩ = [] := by
  rw [sessions, filter_isCharge_idle h, List.map_nil]

/-- So do they in how far these have been executed. -/
theorem sessions_appended {s s' : Schedule R} {before head tasks rest : List (Task R)}
    {stay : Task R} (hs : s.tasks = before ++ [stay]) (hstay : stay.isStay = true)
    (hs' : s'.tasks = before ++ head ++ tasks ++ rest) (hhead : ∀ task ∈ head, task.isStay = true)
    (hrest : ∀ task ∈ rest, task.isStay = true) :
    s'.sessions = s.sessions ++ sessions ⟨tasks⟩ := by
  have hcharges := congrArg (List.map Task.status) (charges_appended hs hstay hs' hhead hrest)
  rwa [List.map_append] at hcharges

end Schedule

/-! ## Taking trips back -/

/-- Tasks that stay in their places come in the same order in another list. -/
theorem filter_sublist_of_getElem? {α : Type} {p : α → Bool} {l l' : List α}
    (h : ∀ (i : Nat) (a : α), l[i]? = some a → p a = true → l'[i]? = some a) :
    (l.filter p).Sublist (l'.filter p) := by
  induction l generalizing l' with
  | nil => exact List.nil_sublist _
  | cons a rest ih =>
    have hrest {b : α} {others : List α} (hl : l' = b :: others) :
        (rest.filter p).Sublist (others.filter p) := by
      refine ih fun i c hget hc => ?_
      simpa [hl] using h (i + 1) c hget hc
    cases l' with
    | nil =>
      have hnone : (a :: rest).filter p = [] := by
        refine List.filter_eq_nil_iff.mpr fun c hmem hc => ?_
        obtain ⟨i, hget⟩ := List.mem_iff_getElem?.mp hmem
        simpa using h i c hget hc
      rw [hnone]
      exact List.nil_sublist _
    | cons b others =>
      cases ha : p a with
      | true =>
        obtain rfl : b = a := by simpa using h 0 a rfl ha
        rw [List.filter_cons_of_pos ha, List.filter_cons_of_pos ha]
        exact (hrest rfl).cons_cons b
      | false =>
        rw [List.filter_cons_of_neg (by simp [ha])]
        exact (hrest rfl).trans ((List.sublist_cons_self b others).filter p)

namespace Schedule

/-- Charging tasks are bound to their places. -/
theorem Spares.sessions_sublist {request : RequestId} {s s' : Schedule R}
    (h : s.Spares request s') : s.sessions.Sublist s'.sessions := by
  refine (filter_sublist_of_getElem? fun i task hget hcharge => ?_).map _
  exact h i task hget (.inr (.inl (Task.isCharge_iff.mp hcharge)))

/-- Turning a task into idle time adds no charging task. -/
theorem vacate_sessions {s s' : Schedule R} {index : Nat} (h : s.vacate index = .ok s') :
    s'.sessions.Sublist s.sessions := by
  obtain ⟨before, task, after, htasks, -, -, -, rfl⟩ := vacate_ok h
  rw [eq_of_tasks htasks, sessions_append, sessions_append, sessions_cons, sessions_cons]
  exact (List.Sublist.refl _).append (.append (List.nil_sublist _) (List.Sublist.refl _))

end Schedule

variable [Scalar R]

namespace Vehicle

/-- Taking a request back adds no charging task. -/
theorem Retracted.sessions_sublist {v v' : Vehicle R} (h : v.Retracted v') :
    v'.schedule.sessions.Sublist v.schedule.sessions := by
  cases h with
  | @reclaimed before rest first htasks _ hsame =>
    have hidle {stay : Task R} (hstay : stay.isStay = true) : Schedule.sessions ⟨[stay]⟩ = [] :=
      Schedule.sessions_idle (by simpa using hstay)
    rw [hsame, Schedule.eq_of_tasks htasks, Schedule.sessions_append, Schedule.sessions_append,
      hidle (by rfl), List.append_nil]
    exact List.sublist_append_left _ _
  | vacated hboarding halighting hsame =>
    rw [hsame]
    exact (Schedule.vacate_sessions halighting).trans (Schedule.vacate_sessions hboarding)

/-- So the charging tasks stay as they are. -/
theorem retract_sessions {v v' : Vehicle R} {request : RequestId}
    (hrun : retract request v = .ok () v') (hspares : v.schedule.Spares request v'.schedule) :
    v'.schedule.sessions = v.schedule.sessions :=
  (retract_ok hrun).sessions_sublist.antisymm hspares.sessions_sublist

end Vehicle

/-! ## All vehicles -/

/-- How far each charging task of all schedules has been executed. -/
def sessions (vehicles : List (Vehicle R)) : List TaskStatus :=
  vehicles.flatMap fun v => v.schedule.sessions

variable {a b vehicles : List (Vehicle R)} {v v' : Vehicle R}

omit [Scalar R] in
/-- Sessions are read off all tasks of all vehicles alike. -/
theorem sessions_eq :
    sessions vehicles =
      ((vehicles.flatMap fun v => v.schedule.tasks).filter Task.isCharge).map Task.status := by
  simp only [sessions, Schedule.sessions, List.filter_flatMap, List.map_flatMap]

omit [Scalar R] in
/-- There are as many sessions as charging tasks. -/
theorem length_sessions :
    (sessions vehicles).length =
      (vehicles.flatMap fun v => v.schedule.tasks).countP Task.isCharge := by
  rw [sessions_eq, List.length_map, List.countP_eq_length_filter]

omit [Scalar R] in
/-- There are as many sessions as far executed as charging tasks. -/
theorem count_sessions (status : TaskStatus) :
    (sessions vehicles).count status =
      (vehicles.flatMap fun v => v.schedule.tasks).countP fun task =>
        decide (task.status = status) && task.isCharge := by
  rw [sessions_eq, List.count, List.countP_map, List.countP_filter]
  rfl

omit [Scalar R] in
/-- A vehicle that keeps its sessions keeps those of the fleet. -/
theorem sessions_replace (h : v'.schedule.sessions = v.schedule.sessions) :
    sessions (a ++ v' :: b) = sessions (a ++ v :: b) := by
  simp [sessions, h]

omit [Scalar R] in
/-- Sessions that a vehicle gains are gained by the fleet. -/
theorem sessions_grow {added : List TaskStatus}
    (h : v'.schedule.sessions = v.schedule.sessions ++ added) :
    (sessions (a ++ v' :: b)).Perm (added ++ sessions (a ++ v :: b)) := by
  simp only [sessions, List.flatMap_append, List.flatMap_cons, h, List.append_assoc]
  have hfront := @List.perm_append_comm_assoc _ (sessions a ++ v.schedule.sessions) added
    (sessions b)
  simpa [sessions] using hfront

/-- Whether an event tells that a vehicle with a plug has finished charging. -/
def TaskEvent.completes (event : TaskEvent R) : Bool :=
  match event.phase, event.activity with
  | .ended, .charge _ true => true
  | _, _ => false

/-- A beat ends the charging task of which its event tells, and no other one. -/
theorem Beat.sessions {now : Time} {pool pool' : ChargerPool R} {event : TaskEvent R}
    (h : Beat now v pool event v' pool') (hplugged : event.unplugged = false) :
    (sessions (a ++ v' :: b)).length = (sessions (a ++ v :: b)).length ∧
      (sessions (a ++ v' :: b)).count .performed =
        (sessions (a ++ v :: b)).count .performed + if event.completes then 1 else 0 := by
  obtain ⟨before, after, task, task', htasks, -, hbecomes, -, hvehicle, -, hplugging, -, -, -⟩ := h
  have hkind : event.activity = Activity.ofKind task.kind := hplugging.activity_of_plugged hplugged
  have hsame : task'.isCharge = task.isCharge := by
    unfold Task.isCharge
    rw [hbecomes.kind]
  have hopen := hbecomes.not_over
  have hcompletes : event.completes = (task.isCharge && decide (task'.status = .performed)) := by
    rw [hbecomes.status, TaskEvent.completes, hkind, Task.isCharge]
    cases event.phase <;> cases task.kind <;> rfl
  have hone : ((if task.isCharge then [task'.status] else []) : List TaskStatus).count .performed =
      ((if task.isCharge then [task.status] else []) : List TaskStatus).count .performed +
        if event.completes then 1 else 0 := by
    rw [hcompletes]
    cases task.isCharge <;> simp [hopen, List.count_singleton]
  have hold : v.schedule.sessions = Schedule.sessions ⟨before⟩ ++
      ((if task.isCharge then [task.status] else []) ++ Schedule.sessions ⟨after⟩) := by
    rw [Schedule.eq_of_tasks htasks, Schedule.sessions_append, Schedule.sessions_cons]
  have hnew : v'.schedule.sessions = Schedule.sessions ⟨before⟩ ++
      ((if task.isCharge then [task'.status] else []) ++ Schedule.sessions ⟨after⟩) := by
    rw [Schedule.eq_of_tasks hvehicle.tasks, Schedule.sessions_append, Schedule.sessions_cons,
      hsame]
  constructor
  · simp only [DemandTransport.sessions, List.flatMap_append, List.flatMap_cons, hold, hnew,
      List.length_append]
    cases task.isCharge <;> simp
  · simp only [DemandTransport.sessions, List.flatMap_append, List.flatMap_cons, hold, hnew,
      List.count_append, hone]
    omega

/-- The vehicles after some events, with charging tasks that had been executed so far before: there
are as many, and those are over as well of which the events tell. -/
structure Charged (start : List TaskStatus) (past : List (TaskEvent R))
    (vehicles : List (Vehicle R)) : Prop where
  length : (sessions vehicles).length = start.length
  completed : (sessions vehicles).count .performed =
    start.count .performed + past.countP TaskEvent.completes

/-- Execution completes the sessions of which its events tell. -/
theorem Charged.steady {grid : StepGrid} {now : Time} {start : List TaskStatus}
    (hsnap : ∀ t ≤ now, grid.snap t ≤ now) :
    Steady now (TaskEvent.append (R := R))
      fun vs pool past => Accommodated grid now now pool vs ∧ Charged start past vs where
  ready h v hv := ⟨(h.1.roster.valid v hv).toValid.inSequence, h.1.roster.supplied v hv⟩
  beat h hbeat := by
    obtain ⟨hplugged, hnext⟩ := h.1.beat hsnap hbeat
    obtain ⟨hlength, hcompleted⟩ := hbeat.sessions hplugged
    refine ⟨_, rfl, hnext, hlength.trans h.2.length, ?_⟩
    rw [hcompleted, h.2.completed, List.countP_append, List.countP_singleton, Nat.add_assoc]

/-! ## Planning -/

namespace Dispatcher

variable {ctx : DispatchContext R} {op op' : Operation R} {ids : List RequestId}
  {outcomes : List (RequestOutcome R)}

/-- Trips are written beside the charging tasks. -/
theorem Serves.sessions_eq (h : Serves ctx op ids outcomes op') :
    sessions op'.fleet.vehicles = sessions op.fleet.vehicles := by
  induction h with
  | done => rfl
  | skip _ ih => exact ih
  | @plan op op' id rest outcomes entry a b v v' plan requests stay before head left _ vehicle _
      evaluated carried _ _ ih =>
    have hnone : Schedule.sessions ⟨[plan.tasks].flatten⟩ = [] :=
      Schedule.sessions_eq_nil fun task htask =>
        (Vehicle.evaluate_stays evaluated task (by simpa using htask)).2
    have hsame := Schedule.sessions_appended carried.old carried.idle carried.new carried.head_idle
      fun task htask => (carried.rest_idle task htask).1
    rw [hnone, List.append_nil] at hsame
    rw [ih, vehicle]
    exact sessions_replace hsame

end Dispatcher

namespace ChargingPlanner

variable {planner : ChargingPlanner R} {network : Network R} {router : Router R} {now : Time}
  {pool : ChargerPool R} {bookings : List Booking} {session : Session R} {fleet : Fleet R}

/-- A session has one charging task, which is planned. -/
theorem session_sessions
    (h : planner.sessionFor? network router now pool bookings v = some session) :
    Schedule.sessions ⟨session.tasks⟩ = [.planned] := by
  obtain ⟨_, charger, route, f, g, hsession⟩ := sessionFor?_eq_some h
  have hdrives : Schedule.sessions ⟨route.drives.map f⟩ = [] := by
    refine Schedule.sessions_eq_nil fun task htask other hcharge => ?_
    obtain ⟨plain, hplain, rfl⟩ := List.mem_map.mp htask
    have hdrive := route.drives_isDrive plain hplain
    rw [← hsession.keepsDrives.kind, hcharge] at hdrive
    cases hdrive
  have hcharges (t u : Time) :
      Schedule.sessions ⟨[g (Task.charge charger.id charger.node t u)]⟩ = [.planned] := by
    simp [Schedule.sessions, Task.isCharge, hsession.keepsCharge.kind, hsession.keepsCharge.status,
      Task.charge]
  rw [hsession.tasks, Schedule.sessions_append, hdrives, hcharges, List.nil_append]

/-- Planning adds a charging task for each session that it reports. -/
theorem planFor_sessions (hrouter : router.Sound) {ids : List VehicleId}
    (hvalid : ∀ v ∈ fleet.vehicles, v.schedule.Valid) :
    (planner.planFor network router now pool bookings ids).Ends fleet
      (fun charging fleet' => (sessions fleet'.vehicles).Perm
        (List.replicate charging.length .planned ++ sessions fleet.vehicles))
      fun _ _ => True := by
  induction ids generalizing fleet bookings with
  | nil => exact .refl _
  | cons id rest ih =>
    simp only [planFor, Action.ends_bind, Action.ends_mapError, Action.ends_ask]
    cases hget : fleet.get id with
    | error e => trivial
    | ok v =>
      dsimp only
      cases hsession : planner.sessionFor? network router now pool bookings v with
      | none => exact ih hvalid
      | some session =>
        obtain ⟨a, b, hsplit, hlength⟩ := Fleet.get_ok hget
        rw [hsplit] at hvalid ⊢
        have hv := hvalid v (by simp)
        have hreplanned := @Vehicle.insertAt_replanned R planner.grid _ v _ _ session.depart
          session.tasks ⟨hv, rfl, rfl⟩ (session_books hsession).2
        simp only [Action.ends_bind, Action.ends_pure]
        rw [Operation.onVehicle_ends hsplit hlength]
        refine ((session_written hrouter hv hsession).and hreplanned).mono ?_ fun _ _ _ => trivial
        rintro - v' ⟨⟨_, before, stay, _, _, hwritten, -⟩, hv'⟩
        have hgrow := Schedule.sessions_appended hwritten.old hwritten.idle hwritten.new
          (Task.partBefore_isStay hwritten.idle _)
          (Schedule.leftover_isStay (Task.partFrom_isStay hwritten.idle _) _)
        rw [session_sessions hsession] at hgrow
        have hvalid' : v'.schedule.Valid := (hv'.schedule.valid ⟨hv, rfl, rfl⟩).toValid
        refine (ih (forall_mem_replace hvalid hvalid')).mono (fun charging _ hrest => ?_)
          fun _ _ h => h
        refine hrest.trans (((sessions_grow hgrow).append_left _).trans (.of_eq ?_))
        rw [List.length_cons, List.replicate_succ', List.append_assoc]

/-- Planning adds as many planned sessions as it reports. -/
theorem plan_sessions (hrouter : router.Sound)
    (hvalid : ∀ v ∈ fleet.vehicles, v.schedule.Valid) :
    (planner.plan network router now pool).Ends fleet
      (fun charging fleet' => (sessions fleet'.vehicles).Perm
        (List.replicate charging.length .planned ++ sessions fleet.vehicles))
      fun _ _ => True := by
  unfold plan
  split
  · exact .refl _
  · simp only [Action.ends_bind, Action.ends_get]
    exact planFor_sessions hrouter hvalid

end ChargingPlanner

end DemandTransport
