import DemandTransport.Proofs.Dispatch.Appending
import DemandTransport.Proofs.Schedule.Trips

/-!
# Carrying out plans

A plan for a request adds one pickup and one dropoff of the request to the schedule for which it was
made, and a charging session adds no visit at all. Both can always be carried out, provided that the
vehicle's horizon ends before the last instant there is, and both leave the schedule paired.
-/

namespace DemandTransport

variable {R : Type}

/-- Tasks that leave a free vehicle free, put behind others between stretches of idle time, add
their visits to a paired schedule. -/
theorem Schedule.Paired.appended {s s' : Schedule R} {before head tasks rest : List (Task R)}
    {stay : Task R} (h : s.Paired) (hs : s.tasks = before ++ [stay]) (hstay : stay.isStay = true)
    (hs' : s'.tasks = before ++ head ++ tasks ++ rest) (hhead : ∀ task ∈ head, task.isStay = true)
    (hrest : ∀ task ∈ rest, task.isStay = true) (htasks : Ride.free.after? tasks = some .free) :
    s'.Paired ∧ ∀ e request,
      s'.visits e request = s.visits e request ++ visits ⟨tasks⟩ e request := by
  have hidle {tasks : List (Task R)} (h : ∀ task ∈ tasks, task.isStay = true) :
      ∀ task ∈ tasks, task.kind.request? = none :=
    fun task htask => Task.request?_eq_none (.inl (h task htask))
  have hbefore : Ride.free.after? before = some .free := by
    unfold Paired at h
    rw [hs, Ride.after?_append] at h
    cases hride : Ride.free.after? before with
    | none => simp [hride] at h
    | some ride =>
      obtain ⟨charger, hkind⟩ := Task.kind_of_isStay hstay
      rw [hride, Option.bind_some, Ride.after?, hkind] at h
      cases ride <;> simp_all [Ride.next?]
  constructor
  · unfold Paired
    rw [hs', Ride.after?_append, Ride.after?_append, Ride.after?_append, hbefore, Option.bind_some,
      Ride.after?_free (hidle hhead), Option.bind_some, htasks, Option.bind_some,
      Ride.after?_free (hidle hrest)]
  · intro e request
    have hlast : visits ⟨[stay]⟩ e request = [] := visits_idle (by simpa using hstay)
    rw [eq_of_tasks hs, eq_of_tasks hs', visits_append, visits_append, visits_append,
      visits_append, visits_idle hhead, visits_idle hrest, hlast]
    simp

namespace Vehicle

variable [Scalar R]

/-- A vehicle into whose trailing idle time tasks have been written from an instant on, in which
nothing else has changed. -/
structure Written (before : List (Task R)) (stay : Task R) (depart : Time) (tasks : List (Task R))
    (v v' : Vehicle R) : Prop where
  /-- The schedule ended with idle time. -/
  old : v.schedule.tasks = before ++ [stay]
  idle : stay.isStay = true
  /-- The idle time was not over. -/
  opened : stay.status ≠ .performed
  /-- The instant does not lie before the idle time. -/
  begins : stay.start ≤ depart
  /-- The part of the idle time from then on has not been begun. -/
  waiting : (stay.partFrom depart).status = .planned
  /-- It is the same vehicle. -/
  same : v' = { v with schedule := v'.schedule }
  /-- The tasks stand between the two parts of the idle time that they leave. -/
  new : v'.schedule.tasks = before ++ stay.partBefore depart ++ tasks ++
    Schedule.leftover (stay.partFrom depart) tasks

/-- Tasks that have been written into a vehicle's open idle time were carved one by one from the
part of it from where they begin. -/
theorem insertFrom_of_insertAt {v v' : Vehicle R} {now : Time} {slot : Slot}
    {before tasks : List (Task R)} {stay : Task R} (hvalid : v.schedule.Valid)
    (hlies : slot.LiesIn v now before stay) (hrun : insertAt slot.depart tasks v = .ok () v') :
    Schedule.insertFrom (before ++ stay.partBefore slot.depart).length tasks
        ⟨before ++ stay.partBefore slot.depart ++ [stay.partFrom slot.depart]⟩ =
      .ok () v'.schedule ∧ v' = { v with schedule := v'.schedule } := by
  have hschedule := Schedule.eq_of_tasks hlies.tasks
  have hpoint := Schedule.Valid.insertionPoint_open (hschedule ▸ hvalid) hlies.idle hlies.opened
    hlies.fresh ⟨hlies.begins, hlies.room⟩
  have hends : (insertAt slot.depart tasks).Ends v (fun _ v' => Schedule.insertFrom
      (before ++ stay.partBefore slot.depart).length tasks
        ⟨before ++ stay.partBefore slot.depart ++ [stay.partFrom slot.depart]⟩ =
      .ok () v'.schedule ∧ v' = { v with schedule := v'.schedule }) fun _ _ => True := by
    simp only [insertAt, onSchedule, Schedule.insertAt, Schedule.InPlace.insertionPoint_eq,
      Action.ends_bind, Action.ends_get, Action.ends_mapError, Action.ends_within,
      Action.ends_entirely, hschedule, hpoint]
    have hany : (Schedule.insertFrom (before ++ stay.partBefore slot.depart).length tasks).Ends
        ⟨before ++ stay.partBefore slot.depart ++ [stay.partFrom slot.depart]⟩
        (fun _ _ => True) fun _ _ => True := .of_forall (fun _ _ => trivial) fun _ _ => trivial
    exact hany.with_run.mono (fun _ _ hrun => ⟨hrun.2, trivial⟩) fun _ _ h => h
  exact hends.of_ok hrun

/-- Tasks that lead from a vehicle's open idle time to a time before it is over are written into the
schedule. -/
theorem insertAt_writes {v : Vehicle R} {now t : Time} {slot : Slot} {tasks : List (Task R)}
    {node : NodeId} (hvalid : v.schedule.Valid) (hslot : v.openSlot? now = some slot)
    (hleads : Leads slot.node slot.depart tasks node t) (ht : t ≤ slot.limit) (hne : tasks ≠ []) :
    (insertAt slot.depart tasks).Ends v
      (fun _ v' => ∃ before stay, Written before stay slot.depart tasks v v' ∧ t ≤ stay.finish)
      fun _ _ => False := by
  obtain ⟨before, stay, hlies⟩ := openSlot?_eq_some hslot
  rw [hlies.node] at hleads
  rw [hlies.limit] at ht
  have hschedule := Schedule.eq_of_tasks hlies.tasks
  have hinsert := Schedule.Valid.insertAt_ends (by rwa [← hschedule]) hlies.idle hlies.opened
    hlies.begins hlies.fresh hleads ht hne
  rw [← hschedule] at hinsert
  simp only [insertAt, onSchedule, Action.ends_bind, Action.ends_get, Action.ends_mapError,
    Action.ends_within]
  have hwaiting := Task.partFrom_status hlies.opened hlies.fresh hlies.begins
  refine hinsert.mono (fun _ s' hs' => ?_) fun _ _ h => h
  exact ⟨before, stay,
    ⟨hlies.tasks, hlies.idle, hlies.opened, hlies.begins, hwaiting, rfl, hs'⟩, ht⟩

/-- Tasks that leave a free vehicle free add their visits when they are written. -/
theorem Written.visits {v v' : Vehicle R} {before tasks : List (Task R)} {stay : Task R}
    {depart : Time} (h : Written before stay depart tasks v v') (hpaired : v.schedule.Paired)
    (htasks : Ride.free.after? tasks = some .free) :
    v'.schedule.Paired ∧ ∀ e request, v'.schedule.visits e request =
      v.schedule.visits e request ++ Schedule.visits ⟨tasks⟩ e request :=
  hpaired.appended h.old h.idle h.new (Task.partBefore_isStay h.idle _)
    (Schedule.leftover_isStay (Task.partFrom_isStay h.idle _) _) htasks

/-- The tasks of a plan leave a free vehicle free. -/
theorem plan_free {ctx : DispatchContext R} {v : Vehicle R} {request : Request}
    {plan : Insertion R} (h : v.evaluate ctx request = .ok plan) :
    Ride.free.after? plan.tasks = some .free := by
  obtain ⟨approach, pickup, ride, dropoff, htasks, happroach, hboards, hride, halights⟩ :=
    evaluate_trip h
  have hdropoff : (Ride.boarded request.id).after? (ride ++ [dropoff]) = some .free := by
    rcases hride with rfl | ⟨drive, rfl, hdrive⟩
    · simp [Ride.after?, Ride.next?, halights]
    · cases hkind : drive.kind <;>
        simp_all [TaskKind.isDrive, Ride.after?, Ride.next?]
  rw [htasks, Ride.after?_append, Ride.after?_free fun task htask =>
    Task.request?_eq_none (happroach task htask), Option.bind_some, Ride.after?, hboards]
  exact hdropoff

/-- The tasks of a plan visit its request once at either end, and no other request. -/
theorem plan_visits {ctx : DispatchContext R} {v : Vehicle R} {request : Request}
    {plan : Insertion R} (h : v.evaluate ctx request = .ok plan)
    (hplanned : ∀ task ∈ plan.tasks, task.status = .planned) (e : TripEnd) (other : RequestId) :
    Schedule.visits ⟨plan.tasks⟩ e other = if other = request.id then [false] else [] := by
  obtain ⟨approach, pickup, ride, dropoff, htasks, happroach, hboards, hride, halights⟩ :=
    evaluate_trip h
  have happroachNone : Schedule.visits ⟨approach⟩ e other = [] :=
    Schedule.visits_eq_nil fun task htask => by simp [Task.request?_eq_none (happroach task htask)]
  have hrideNone : Schedule.visits ⟨ride⟩ e other = [] := by
    refine Schedule.visits_eq_nil fun task htask => ?_
    rcases hride with rfl | ⟨drive, rfl, hdrive⟩
    · simp at htask
    · rw [List.mem_singleton.mp htask, Task.request?_eq_none (.inr hdrive)]
      simp
  have hpickup := hplanned pickup (by simp [htasks])
  have hdropoff := hplanned dropoff (by simp [htasks])
  rw [htasks, Schedule.visits_append, Schedule.visits_cons, Schedule.visits_append,
    happroachNone, hrideNone, List.nil_append, List.nil_append]
  by_cases hother : other = request.id
  · subst hother
    rw [if_pos rfl]
    cases e with
    | boarding =>
      rw [Schedule.visits_of_serves (TripEnd.serves_boarding.mpr hboards),
        Schedule.visits_eq_nil_iff.mpr (by simp [TripEnd.serves, Vehicle.isPickupOf, halights]),
        hpickup]
      rfl
    | alighting =>
      rw [Schedule.visits_of_serves (TripEnd.serves_alighting.mpr halights),
        Schedule.visits_eq_nil_iff.mpr (by simp [TripEnd.serves, Vehicle.isDropoffOf, hboards]),
        hdropoff]
      rfl
  · rw [if_neg hother,
      Schedule.visits_eq_nil (by simp [hboards, TaskKind.request?, Ne.symm hother]),
      Schedule.visits_eq_nil (by simp [halights, TaskKind.request?, Ne.symm hother])]
    rfl

/-- A plan can be carried out on the vehicle for which it was made, provided that alighting begins
before the last instant there is: its tasks are written, and lead to the destination of the request
before the idle time is over. -/
theorem commit_written_of_alights {ctx : DispatchContext R} {v : Vehicle R} {request : Request}
    {plan : Insertion R} (hctx : Dispatcher.Ready ctx.config ctx.router)
    (hvalid : v.schedule.Valid) (halights : plan.dropoffAt < .last)
    (h : v.evaluate ctx request = .ok plan) :
    (commit plan).Ends v
      (fun _ v' => ∃ node before stay t, Written before stay plan.depart plan.tasks v v' ∧
        plan.tasks ≠ [] ∧ t ≤ stay.finish ∧
        Leads node plan.depart plan.tasks request.destination t)
      fun _ _ => False := by
  obtain ⟨slot, _, _, _, _, hplan⟩ := evaluate_ok h
  obtain ⟨approach, pickup, ride, dropoff, htasks, -⟩ := evaluate_trip h
  have hne : plan.tasks ≠ [] := by simp [htasks]
  have hleads := hplan.leads hctx halights
  rw [commit, hplan.depart]
  refine (insertAt_writes hvalid hplan.opens hleads hplan.fits hne).mono ?_ fun _ _ h => h
  rintro - v' ⟨before, stay, hwritten, hlimit⟩
  exact ⟨slot.node, before, stay, _, hwritten, hne, hlimit, hleads⟩

/-- Where the horizon ends before the last instant there is, every plan can be carried out. -/
theorem commit_written {ctx : DispatchContext R} {v : Vehicle R} {request : Request}
    {plan : Insertion R} (hctx : Dispatcher.Ready ctx.config ctx.router)
    (hvalid : v.schedule.Valid) (hlast : v.schedule.finish < .last)
    (h : v.evaluate ctx request = .ok plan) :
    (commit plan).Ends v
      (fun _ v' => ∃ node before stay t, Written before stay plan.depart plan.tasks v v' ∧
        plan.tasks ≠ [] ∧ t ≤ stay.finish ∧
        Leads node plan.depart plan.tasks request.destination t)
      fun _ _ => False := by
  obtain ⟨slot, _, _, _, _, hplan⟩ := evaluate_ok h
  have halights := hplan.alights_lt (openSlot?_limit hplan.opens ▸ hlast)
  exact commit_written_of_alights hctx hvalid halights h

/-- It adds one pickup and one dropoff of its request. -/
theorem commit_ends {ctx : DispatchContext R} {v : Vehicle R} {request : Request}
    {plan : Insertion R} (hctx : Dispatcher.Ready ctx.config ctx.router)
    (hvalid : v.schedule.Valid) (hlast : v.schedule.finish < .last)
    (hpaired : v.schedule.Paired) (h : v.evaluate ctx request = .ok plan) :
    (commit plan).Ends v
      (fun _ v' => v'.schedule.Paired ∧ ∀ e other, v'.schedule.visits e other =
        v.schedule.visits e other ++ if other = request.id then [false] else [])
      fun _ _ => False := by
  refine (commit_written hctx hvalid hlast h).mono ?_ fun _ _ h => h
  rintro - v' ⟨_, _, _, _, hwritten, -, -, hleads⟩
  obtain ⟨hpaired', hvisits⟩ := hwritten.visits hpaired (plan_free h)
  have hadded := plan_visits h fun task htask => (hleads.mem task htask).2
  exact ⟨hpaired', fun e other => by rw [hvisits, hadded]⟩

/-- Tasks that take no time cannot be written. -/
theorem lasts_of_commit {v v' : Vehicle R} {plan : Insertion R}
    (hrun : commit plan v = .ok () v') : ∀ task ∈ plan.tasks, task.start < task.finish := by
  have hends : (commit plan).Ends v
      (fun _ _ => ∀ task ∈ plan.tasks, task.start < task.finish) fun _ _ => True := by
    simp only [commit, insertAt, onSchedule, Schedule.insertAt,
      Schedule.InPlace.insertionPoint_eq, Action.ends_bind, Action.ends_get, Action.ends_mapError,
      Action.ends_within, Action.ends_entirely]
    split
    · exact Schedule.insertFrom_lasts _ _ _
    · trivial
  exact hends.of_ok hrun

/-- A plan that can be carried out gives time to boarding and alighting, so the settings with which
it was made are valid. -/
theorem validate_of_commit {ctx : DispatchContext R} {v v' : Vehicle R} {request : Request}
    {plan : Insertion R} (h : v.evaluate ctx request = .ok plan)
    (hrun : commit plan v = .ok () v') :
    ctx.config.validate = (.ok () : Except (DispatchError R) Unit) := by
  obtain ⟨slot, approach, ride, wait, f, hplan⟩ := evaluate_ok h
  have hlasts := lasts_of_commit hrun
  have hserves : ∀ task ∈ serviceTasks ctx request approach ride wait plan.pickupAt,
      task.start < task.finish := by
    intro task htask
    rw [← hplan.keeps.start, ← hplan.keeps.finish]
    exact hlasts _ (hplan.tasks ▸ List.mem_map_of_mem htask)
  have hboards := hserves (Task.pickup request.id request.origin plan.pickupAt
    (plan.pickupAt.offset ctx.config.pickupSecs)) (by simp [serviceTasks])
  have halights := hserves (Task.dropoff request.id request.destination ride.arrival
    (ride.arrival.offset ctx.config.dropoffSecs)) (by simp [serviceTasks])
  refine if_neg (not_or.mpr ⟨?_, ?_⟩) <;>
    simp only [Task.pickup, Task.dropoff, Time.lt_iff, Time.secs_offset] at hboards halights <;>
    omega

end Vehicle

namespace ChargingPlanner

variable [Scalar R] {planner : ChargingPlanner R} {network : Network R} {router : Router R}
  {now : Time} {pool : ChargerPool R} {bookings : List Booking} {v : Vehicle R}
  {session : Session R}

/-- A session serves no request. -/
theorem session_request?
    (h : planner.sessionFor? network router now pool bookings v = some session) :
    ∀ task ∈ session.tasks, task.kind.request? = none := by
  obtain ⟨_, _, route, f, g, hsession⟩ := sessionFor?_eq_some h
  intro task htask
  rw [hsession.tasks] at htask
  rcases List.mem_append.mp htask with hdrive | hcharge
  · obtain ⟨plain, hplain, rfl⟩ := List.mem_map.mp hdrive
    refine Task.request?_eq_none (.inr ?_)
    rw [hsession.keepsDrives.kind]
    exact route.drives_isDrive plain hplain
  · rw [List.mem_singleton.mp hcharge, hsession.keepsCharge.kind]
    rfl

/-- A session can be carried out on the vehicle for which it was found: its tasks are written, and
lead to a charger before the idle time is over. -/
theorem session_written (hrouter : router.Sound) (hvalid : v.schedule.Valid)
    (h : planner.sessionFor? network router now pool bookings v = some session) :
    (Vehicle.insertAt session.depart session.tasks).Ends v
      (fun _ v' => ∃ start before stay node t,
        Vehicle.Written before stay session.depart session.tasks v v' ∧ session.tasks ≠ [] ∧
        t ≤ stay.finish ∧ Leads start session.depart session.tasks node t)
      fun _ _ => False := by
  obtain ⟨slot, charger, route, f, g, hsession⟩ := sessionFor?_eq_some h
  have hlast : slot.depart < .last := by
    obtain ⟨before, stay, hlies⟩ := Vehicle.openSlot?_eq_some hsession.opens
    have hroom := hlies.room
    have hword := stay.finish.secs_le
    simp only [Time.lt_iff, Time.last] at *
    omega
  have hleads := session_leads hrouter hsession.drives hlast hsession.keepsDrives
    hsession.keepsCharge hsession.lasts
  rw [← hsession.tasks] at hleads
  have hne : session.tasks ≠ [] := by simp [hsession.tasks]
  rw [hsession.depart]
  refine (Vehicle.insertAt_writes hvalid hsession.opens hleads hsession.limit hne).mono ?_
    fun _ _ h => h
  rintro - v' ⟨before, stay, hwritten, hlimit⟩
  exact ⟨_, before, stay, _, _, hwritten, hne, hlimit, hleads⟩

end ChargingPlanner

end DemandTransport
