import DemandTransport.Dispatch.Charging
import DemandTransport.Proofs.Network.Reach
import DemandTransport.Proofs.Schedule.Validity

/-!
# What is planned for a vehicle

The tasks of a plan, for a request or for charging, lead from the vehicle's open idle time on: each
one begins where and when the one before it ends, and the last one ends before the idle time does.
For each evaluation there is one lemma that tells how an answer came about, and from it what its
tasks are and where they lead.
-/

namespace DemandTransport

variable {R : Type}

/-- Tasks that lead from a node and a time to a node and a time. -/
inductive Leads : NodeId → Time → List (Task R) → NodeId → Time → Prop where
  /-- Without tasks nothing changes. -/
  | nil (node : NodeId) (t : Time) : Leads node t [] node t
  /-- A planned task is followed by those that lead on from its end. -/
  | cons {task : Task R} {rest : List (Task R)} {node : NodeId} {t : Time}
    (sound : task.Sound) (fresh : task.status = .planned)
    (later : Leads task.target task.finish rest node t) :
    Leads task.source task.start (task :: rest) node t

namespace Leads

variable {a b c : NodeId} {s t u : Time} {tasks more : List (Task R)}

/-- Every one of them is sound and planned. -/
theorem mem (h : Leads a s tasks b t) : ∀ task ∈ tasks, task.Sound ∧ task.status = .planned := by
  induction h with
  | nil => simp
  | cons sound fresh _ ih =>
    intro task htask
    rcases List.mem_cons.mp htask with rfl | htask
    · exact ⟨sound, fresh⟩
    · exact ih task htask

/-- No task begins before the first one may. -/
theorem le_start (h : Leads a s tasks b t) : ∀ task ∈ tasks, s ≤ task.start := by
  induction h with
  | nil => simp
  | cons sound _ _ ih =>
    intro task htask
    have hlasts := sound.lasts
    rcases List.mem_cons.mp htask with rfl | hlater
    · exact Nat.le_refl _
    · have hstart := ih task hlater
      simp only [Time.le_iff, Time.lt_iff] at *
      omega

/-- Without tasks nothing has changed. -/
theorem of_nil (h : Leads (R := R) a s [] b t) : a = b ∧ s = t := by
  cases h
  exact ⟨rfl, rfl⟩

/-- Where the last task ends is where they lead. -/
theorem finish_of_getLast? (h : Leads a s tasks b t) :
    ∀ task ∈ tasks.getLast?, task.finish = t ∧ task.target = b := by
  induction h with
  | nil => simp
  | @cons task rest node t sound fresh later ih =>
    cases rest with
    | nil =>
      obtain ⟨rfl, rfl⟩ := later.of_nil
      rintro last ⟨⟩
      exact ⟨rfl, rfl⟩
    | cons next rest => simpa using ih

theorem append (h : Leads a s tasks b t) (h' : Leads b t more c u) :
    Leads a s (tasks ++ more) c u := by
  induction h with
  | nil => exact h'
  | cons sound fresh _ ih => exact .cons sound fresh (ih h')

theorem le (h : Leads a s tasks b t) : s ≤ t := by
  induction h with
  | nil => exact Nat.le_refl _
  | cons sound _ _ ih =>
    have := sound.lasts
    simp only [Time.le_iff, Time.lt_iff] at *
    omega

/-- Tasks take time. -/
theorem lt (h : Leads a s tasks b t) (hne : tasks ≠ []) : s < t := by
  cases h with
  | nil => exact (hne rfl).elim
  | cons sound _ later =>
    have := sound.lasts
    have := later.le
    simp only [Time.le_iff, Time.lt_iff] at *
    omega

end Leads

/-- A change of tasks that only concerns what is noted about them. -/
structure KeepsWork (f : Task R → Task R) : Prop where
  kind : ∀ task, (f task).kind = task.kind
  start : ∀ task, (f task).start = task.start
  finish : ∀ task, (f task).finish = task.finish
  source : ∀ task, (f task).source = task.source
  target : ∀ task, (f task).target = task.target
  status : ∀ task, (f task).status = task.status

theorem KeepsWork.id : KeepsWork (R := R) fun task => task :=
  ⟨fun _ => rfl, fun _ => rfl, fun _ => rfl, fun _ => rfl, fun _ => rfl, fun _ => rfl⟩

/-- The energy of tasks does not matter for what they are. -/
theorem KeepsWork.withEnergy (kwh : Task R → R) :
    KeepsWork fun task => task.withEnergy (kwh task) :=
  ⟨fun _ => rfl, fun _ => rfl, fun _ => rfl, fun _ => rfl, fun _ => rfl, fun _ => rfl⟩

theorem Leads.map {f : Task R → Task R} (hf : KeepsWork f) {a b : NodeId} {s t : Time}
    {tasks : List (Task R)} (h : Leads a s tasks b t) : Leads a s (tasks.map f) b t := by
  induction h with
  | nil => exact .nil _ _
  | @cons task rest node t sound fresh _ ih =>
    have hsound : (f task).Sound := by
      refine ⟨?_, ?_⟩
      · rw [hf.start, hf.finish]
        exact sound.lasts
      · rw [hf.kind, hf.source, hf.target]
        exact sound.stays
    have hmore : Leads (f task).target (f task).finish (rest.map f) node t := by
      rwa [hf.target, hf.finish]
    have hall := Leads.cons hsound ((hf.status task).trans fresh) hmore
    rwa [hf.source, hf.start] at hall

/-! ## Legs -/

/-- A leg joins the nodes asked for and takes time unless it takes no link. -/
theorem routeLeg?_joins {network : Network R} {router : Router R} (hrouter : router.Sound)
    {source target : NodeId} {t : Time} {route : Route R}
    (h : routeLeg? network router source target t = some route) :
    route.Joins source target t ∧
      (route.isTrivial = false → t < .last → t < route.arrival) := by
  unfold routeLeg? at h
  split at h
  next found hfound =>
    have hjoins := hrouter _ _ _ _ _ hfound
    split at h
    next hstretched =>
      cases h
      have hdeparture := hjoins.departure
      refine ⟨⟨hjoins.source, hjoins.target, hjoins.departure, ?_, fun htrivial => ?_⟩,
        fun _ hlast => ?_⟩
      · rw [hdeparture]
        exact Time.le_offset _ _
      · have hlinks : found.isTrivial = true := htrivial
        simp [hlinks] at hstretched
      · simp only [hdeparture, Time.lt_iff, Time.secs_offset, Time.last] at *
        omega
    next hkept =>
      cases h
      refine ⟨hjoins, fun hlinks _ => ?_⟩
      have hlater : ¬route.arrival ≤ route.departure := fun hle => hkept ⟨by simp [hlinks], hle⟩
      rw [hjoins.departure] at hlater
      exact Nat.lt_of_not_le hlater
  next => cases h

/-- The drive along a leg leads from its begin to its end. -/
theorem Route.Joins.leads {route : Route R} {source target : NodeId} {t : Time}
    (h : route.Joins source target t) (hlasts : route.isTrivial = false → t < route.arrival) :
    Leads source t route.drives target route.arrival := by
  unfold Route.drives
  cases htrivial : route.isTrivial with
  | true =>
    obtain ⟨rfl, harrival⟩ := h.trivial htrivial
    rw [harrival]
    exact .nil _ _
  | false =>
    have hsound : (Task.drive route).Sound := ⟨by
      change route.departure < route.arrival
      rw [h.departure]
      exact hlasts htrivial, .inl rfl⟩
    have hdrive : Leads route.source route.departure [Task.drive route] route.target
        route.arrival := .cons hsound rfl (.nil _ _)
    rwa [h.source, h.target, h.departure] at hdrive

/-- The tasks along a leg are drives. -/
theorem Route.drives_isDrive (route : Route R) :
    ∀ task ∈ route.drives, task.kind.isDrive = true := by
  unfold Route.drives
  split
  · simp
  · simp [Task.drive, TaskKind.isDrive]

/-! ## Plans for requests -/

theorem Time.secs_max (a b : Time) : (max a b).secs = max a.secs b.secs := by
  change (if a ≤ b then b else a).secs = _
  simp only [Time.le_iff]
  split <;> omega

theorem Time.secs_min (a b : Time) : (min a b).secs = min a.secs b.secs := by
  change (if a ≤ b then a else b).secs = _
  simp only [Time.le_iff]
  split <;> omega

theorem Time.min_le_right (a b : Time) : min a b ≤ b := by
  rw [Time.le_iff, Time.secs_min]
  exact Nat.min_le_right _ _

/-- A slot for work lies in the idle time that ends the schedule of a vehicle. -/
structure Slot.LiesIn (slot : Slot) (v : Vehicle R) (now : Time) (before : List (Task R))
    (stay : Task R) : Prop where
  tasks : v.schedule.tasks = before ++ [stay]
  idle : stay.isStay = true
  /-- The idle time is not over. -/
  opened : stay.status ≠ .performed
  node : slot.node = stay.target
  begins : stay.start ≤ slot.depart
  /-- Work does not begin before the present. -/
  future : now ≤ slot.depart
  room : slot.depart < stay.finish
  limit : slot.limit = stay.finish
  /-- Idle time that has been begun is not replaced altogether. -/
  fresh : stay.status = .started → slot.depart ≠ stay.start

theorem Vehicle.openSlot?_eq_some {v : Vehicle R} {now : Time} {slot : Slot}
    (h : v.openSlot? now = some slot) : ∃ before stay, slot.LiesIn v now before stay := by
  unfold openSlot? at h
  cases htrailing : v.schedule.trailingStay? with
  | none => simp [htrailing] at h
  | some found =>
    obtain ⟨index, stay⟩ := found
    have hstay : v.schedule.tasks.getLast? = some stay ∧ stay.isStay = true := by
      unfold Schedule.trailingStay? at htrailing
      split at htrailing
      · split at htrailing
        · cases htrailing
          exact ⟨‹_›, ‹_›⟩
        · cases htrailing
      · cases htrailing
    obtain ⟨before, hbefore⟩ := List.getLast?_eq_some_iff.mp hstay.1
    simp only [htrailing, available] at h
    generalize hdepart : (if stay.status = .started ∧ max stay.start now = stay.start then
      (max stay.start now).offset 1 else max stay.start now) = depart at h
    split at h
    · cases h
    next hopen =>
      split at h
      next hroom =>
        cases h
        have hready : (max stay.start now).secs = max stay.start.secs now.secs := Time.secs_max _ _
        have hword := stay.finish.secs_le
        have hbegins : stay.start ≤ depart ∧ now ≤ depart ∧
            (stay.status = .started → depart ≠ stay.start) := by
          simp only [Time.le_iff, Time.lt_iff, Time.eq_iff, ne_eq] at *
          split at hdepart
          next hbegun =>
            simp only [Time.secs_offset] at hdepart
            exact ⟨by omega, by omega, fun _ => by omega⟩
          next hfresh => exact ⟨by omega, by omega, fun hstarted heq =>
              hfresh ⟨hstarted, by omega⟩⟩
        obtain ⟨hbegins, hfuture, hfresh⟩ := hbegins
        exact ⟨before, stay, hbefore, hstay.2, hopen, rfl, hbegins, hfuture, hroom, rfl, hfresh⟩
      · cases h

/-- Work has to be done by the end of the horizon. -/
theorem Vehicle.openSlot?_limit {v : Vehicle R} {now : Time} {slot : Slot}
    (h : v.openSlot? now = some slot) : slot.limit = v.schedule.finish := by
  obtain ⟨before, stay, hlies⟩ := openSlot?_eq_some h
  rw [hlies.limit, Schedule.eq_of_tasks hlies.tasks, Schedule.finish_append_singleton]

variable [Scalar R]

omit [Scalar R] in
theorem DispatchContext.leg_ok {ctx : DispatchContext R} {source target : NodeId} {t : Time}
    {route : Route R} (h : ctx.leg source target t = .ok route) :
    routeLeg? ctx.network ctx.router source target t = some route := by
  unfold leg at h
  split at h
  · cases h
    assumption
  · cases h

/-- The energy of a plan is noted in its tasks and changes nothing else. -/
theorem Vehicle.powered_ok {v : Vehicle R} {depart : Time} {tasks tasks' : List (Task R)}
    (h : v.powered depart tasks = .ok tasks') : ∃ f, KeepsWork f ∧ tasks' = tasks.map f := by
  unfold powered at h
  split at h
  · cases h
    exact ⟨fun task => task, .id, by simp⟩
  next profile hprofile =>
    refine ⟨fun task => task.withEnergy (profile.taskEnergy task), .withEnergy _, ?_⟩
    dsimp only at h
    split at h
    · split at h <;> cases h
      rfl
    · cases h
      rfl

/-- The tasks that serve a request: an approach, idle time until boarding, the pickup, a ride and
the dropoff. -/
def serviceTasks (ctx : DispatchContext R) (request : Request) (approach ride : Route R)
    (wait : List (Task R)) (pickupAt : Time) : List (Task R) :=
  approach.drives ++ wait ++
    [Task.pickup request.id request.origin pickupAt (pickupAt.offset ctx.config.pickupSecs)] ++
    ride.drives ++
    [Task.dropoff request.id request.destination ride.arrival
      (ride.arrival.offset ctx.config.dropoffSecs)]

/-- How an evaluation comes to a plan: along two legs, with boarding between them, before the idle
time is over. -/
structure Insertion.Joins (plan : Insertion R) (ctx : DispatchContext R) (v : Vehicle R)
    (request : Request) (slot : Slot) (approach ride : Route R) (wait : List (Task R))
    (f : Task R → Task R) : Prop where
  opens : v.openSlot? ctx.now = some slot
  approaches : routeLeg? ctx.network ctx.router slot.node request.origin slot.depart = some approach
  boards : request.boarding approach.arrival = (.ok (wait, plan.pickupAt) :
    Except (RejectionReason R) (List (Task R) × Time))
  rides : routeLeg? ctx.network ctx.router request.origin request.destination
    (plan.pickupAt.offset ctx.config.pickupSecs) = some ride
  alights : plan.dropoffAt = ride.arrival
  fits : ride.arrival.offset ctx.config.dropoffSecs ≤ slot.limit
  vehicle : plan.vehicle = v.id
  depart : plan.depart = slot.depart
  /-- The energy of each task is noted in it. -/
  keeps : KeepsWork f
  tasks : plan.tasks = (serviceTasks ctx request approach ride wait plan.pickupAt).map f
  powered : v.powered plan.depart (serviceTasks ctx request approach ride wait plan.pickupAt) =
    .ok plan.tasks

theorem Vehicle.evaluate_ok {ctx : DispatchContext R} {v : Vehicle R} {request : Request}
    {plan : Insertion R} (h : v.evaluate ctx request = .ok plan) :
    ∃ slot approach ride wait f, plan.Joins ctx v request slot approach ride wait f := by
  unfold evaluate at h
  simp only [bind, Except.bind, pure, Except.pure, throw, throwThe, MonadExceptOf.throw] at h
  split at h
  · cases h
  split at h
  next slot hslot =>
    split at h
    · cases h
    next approach happroach =>
      split at h
      · cases h
      next boarding hboarding =>
        split at h
        · cases h
        next ride hride =>
          split at h
          · cases h
          next hfits =>
            split at h
            · cases h
            next tasks hpowered =>
              obtain ⟨f, hf, htasks⟩ := powered_ok hpowered
              cases h
              exact ⟨slot, approach, ride, boarding.1, f, hslot, DispatchContext.leg_ok happroach,
                hboarding, DispatchContext.leg_ok hride, rfl, Nat.le_of_not_lt hfits, rfl, rfl, hf,
                htasks, hpowered⟩
  · cases h

/-- A vehicle for which nothing of this fails has a plan. -/
theorem Vehicle.exists_evaluate_ok {ctx : DispatchContext R} {v : Vehicle R} {request : Request}
    {slot : Slot} {approach ride : Route R} {wait tasks : List (Task R)} {pickupAt : Time}
    (hseats : v.seats ≠ 0) (hopens : v.openSlot? ctx.now = some slot)
    (happroach : routeLeg? ctx.network ctx.router slot.node request.origin slot.depart =
      some approach)
    (hboards : request.boarding approach.arrival = (.ok (wait, pickupAt) :
      Except (RejectionReason R) (List (Task R) × Time)))
    (hride : routeLeg? ctx.network ctx.router request.origin request.destination
      (pickupAt.offset ctx.config.pickupSecs) = some ride)
    (hfits : ride.arrival.offset ctx.config.dropoffSecs ≤ slot.limit)
    (hpowered : v.powered slot.depart (serviceTasks ctx request approach ride wait pickupAt) =
      .ok tasks) : ∃ plan, v.evaluate ctx request = .ok plan := by
  have hleave : ctx.leg slot.node request.origin slot.depart = .ok approach := by
    simp [DispatchContext.leg, happroach]
  have hmove : ctx.leg request.origin request.destination
      (pickupAt.offset ctx.config.pickupSecs) = .ok ride := by
    simp [DispatchContext.leg, hride]
  have hroom : ¬slot.limit < ride.arrival.offset ctx.config.dropoffSecs :=
    Nat.not_lt_of_le hfits
  unfold serviceTasks at hpowered
  unfold evaluate
  simp only [bind, Except.bind, pure, Except.pure, if_neg hseats, hopens, hleave, hboards, hmove,
    if_neg hroom, hpowered]
  exact ⟨_, rfl⟩

omit [Scalar R] in
/-- Boarding begins after the arrival, and idle time leads there. -/
theorem Request.boarding_ok {request : Request} {arrival pickupAt : Time} {wait : List (Task R)}
    (h : request.boarding arrival = (.ok (wait, pickupAt) :
      Except (RejectionReason R) (List (Task R) × Time))) :
    Leads request.origin arrival wait request.origin pickupAt ∧
      ∀ task ∈ wait, task.isStay = true := by
  unfold boarding at h
  split at h
  · cases h
    exact ⟨.nil _ _, by simp⟩
  next window hwindow =>
    split at h
    · cases h
    · split at h
      next hearly =>
        cases h
        have hsound : (Task.stay request.origin arrival window.earliest : Task R).Sound :=
          ⟨hearly, .inr rfl⟩
        exact ⟨.cons hsound rfl (.nil _ _), by simp [Task.stay, Task.isStay, TaskKind.isStay]⟩
      · cases h
        exact ⟨.nil _ _, by simp⟩

/-- Before the last instant there is time for more. -/
theorem Time.lt_offset {t : Time} {secs : Nat} (hsecs : secs ≠ 0) (hroom : t < .last) :
    t < t.offset secs := by
  simp only [Time.lt_iff, Time.secs_offset, Time.last] at *
  omega

omit [Scalar R] in
/-- A stretch of time that a plan gives to boarding or alighting is not empty. -/
theorem Leads.service {task : Task R} {node : NodeId} {t : Time} {secs : Nat}
    (hplace : task.source = node ∧ task.target = node) (hstart : task.start = t)
    (hfinish : task.finish = t.offset secs) (hfresh : task.status = .planned) (hsecs : secs ≠ 0)
    (hroom : t < .last) : Leads node t [task] node task.finish := by
  have hsound : task.Sound := by
    refine ⟨?_, .inr (hplace.1.trans hplace.2.symm)⟩
    rw [hstart, hfinish]
    exact Time.lt_offset hsecs hroom
  have hleads := Leads.cons hsound hfresh (.nil task.target task.finish)
  rwa [hplace.1, hplace.2, hstart] at hleads

/-- Everything that is the same for all dispatch cycles of a run. -/
structure Dispatcher.Ready (config : DispatchConfig) (router : Router R) : Prop where
  router : router.Sound
  pickup : config.pickupSecs ≠ 0
  dropoff : config.dropoffSecs ≠ 0

omit [Scalar R] in
/-- Under valid settings boarding and alighting take time. -/
theorem DispatchConfig.validate_ok {config : DispatchConfig}
    (h : config.validate = (.ok () : Except (DispatchError R) Unit)) :
    config.pickupSecs ≠ 0 ∧ config.dropoffSecs ≠ 0 := by
  unfold validate at h
  split at h
  next => cases h
  next hsecs => exact not_or.mp hsecs

omit [Scalar R] in
theorem Dispatcher.Ready.of_validate {config : DispatchConfig} {router : Router R}
    (hrouter : router.Sound) (h : config.validate = (.ok () : Except (DispatchError R) Unit)) :
    Dispatcher.Ready config router :=
  ⟨hrouter, (DispatchConfig.validate_ok h).1, (DispatchConfig.validate_ok h).2⟩

/-- The tasks of a plan lead from the open idle time to the destination, before the idle time is
over, provided that alighting begins before the last instant there is. -/
theorem Insertion.Joins.leads {ctx : DispatchContext R} {v : Vehicle R} {request : Request}
    {plan : Insertion R} {slot : Slot} {approach ride : Route R} {wait : List (Task R)}
    {f : Task R → Task R} (h : plan.Joins ctx v request slot approach ride wait f)
    (hctx : Dispatcher.Ready ctx.config ctx.router) (halights : plan.dropoffAt < .last) :
    Leads slot.node slot.depart plan.tasks request.destination
      (ride.arrival.offset ctx.config.dropoffSecs) := by
  obtain ⟨hjoins, hlasts⟩ := routeLeg?_joins hctx.router h.approaches
  obtain ⟨hrideJoins, hrideLasts⟩ := routeLeg?_joins hctx.router h.rides
  obtain ⟨hwait, -⟩ := Request.boarding_ok h.boards
  have hwaits := hwait.le
  have harrival := hjoins.arrival
  have hrideArrival := hrideJoins.arrival
  have hboards := Time.le_offset plan.pickupAt ctx.config.pickupSecs
  rw [h.alights] at halights
  rw [h.tasks]
  refine Leads.map h.keeps ((((hjoins.leads fun hlinks => hlasts hlinks ?_).append hwait).append
    (.service ⟨rfl, rfl⟩ rfl rfl rfl hctx.pickup ?_)).append
    (hrideJoins.leads fun hlinks => hrideLasts hlinks ?_) |>.append
    (.service ⟨rfl, rfl⟩ rfl rfl rfl hctx.dropoff ?_))
  all_goals
    simp only [Task.dropoff, Time.le_iff, Time.lt_iff] at *
    omega

/-- Where the idle time ends before the last instant there is, alighting begins before it. -/
theorem Insertion.Joins.alights_lt {ctx : DispatchContext R} {v : Vehicle R} {request : Request}
    {plan : Insertion R} {slot : Slot} {approach ride : Route R} {wait : List (Task R)}
    {f : Task R → Task R} (h : plan.Joins ctx v request slot approach ride wait f)
    (hlast : slot.limit < .last) : plan.dropoffAt < .last := by
  have hfits := h.fits
  have halights := Time.le_offset ride.arrival ctx.config.dropoffSecs
  rw [h.alights]
  simp only [Time.le_iff, Time.lt_iff] at *
  omega

/-- The tasks of a plan lead from the open idle time to the destination, before the idle time is
over. -/
theorem Vehicle.evaluate_leads {ctx : DispatchContext R} {v : Vehicle R} {request : Request}
    {plan : Insertion R} (hctx : Dispatcher.Ready ctx.config ctx.router) {slot : Slot}
    (hslot : v.openSlot? ctx.now = some slot) (hlast : slot.limit < .last)
    (h : v.evaluate ctx request = .ok plan) :
    ∃ t ≤ slot.limit, Leads slot.node slot.depart plan.tasks request.destination t := by
  obtain ⟨slot', approach, ride, wait, f, hplan⟩ := evaluate_ok h
  cases hslot.symm.trans hplan.opens
  exact ⟨_, hplan.fits, hplan.leads hctx (hplan.alights_lt hlast)⟩

omit [Scalar R] in
theorem Route.drives_eq (route : Route R) :
    route.drives = [] ∨ route.drives = [Task.drive route] := by
  unfold drives
  split
  · exact .inl rfl
  · exact .inr rfl

/-- A plan for a request brings the vehicle to its pickup, takes one drive at most from there to the
dropoff, and ends with it. -/
theorem Vehicle.evaluate_trip {ctx : DispatchContext R} {v : Vehicle R} {request : Request}
    {plan : Insertion R} (h : v.evaluate ctx request = .ok plan) :
    ∃ approach pickup ride dropoff, plan.tasks = approach ++ pickup :: (ride ++ [dropoff]) ∧
      (∀ task ∈ approach, task.isStay = true ∨ task.kind.isDrive = true) ∧
      pickup.kind = .pickup request.id ∧
      (ride = [] ∨ ∃ drive : Task R, ride = [drive] ∧ drive.kind.isDrive = true) ∧
      dropoff.kind = .dropoff request.id := by
  obtain ⟨slot, approach, ride, wait, f, hplan⟩ := evaluate_ok h
  refine ⟨(approach.drives ++ wait).map f, _, ride.drives.map f, _,
    by rw [hplan.tasks, serviceTasks]; simp only [List.map_append, List.append_assoc]; rfl,
    ?_, hplan.keeps.kind _, ?_, hplan.keeps.kind _⟩
  · intro task htask
    obtain ⟨plain, hplain, rfl⟩ := List.mem_map.mp htask
    rw [Task.isStay, hplan.keeps.kind]
    rcases List.mem_append.mp hplain with hdrive | hwait
    · exact .inr (Route.drives_isDrive approach plain hdrive)
    · exact .inl ((Request.boarding_ok hplan.boards).2 plain hwait)
  · rcases ride.drives_eq with hnone | hone
    · exact .inl (by rw [hnone]; rfl)
    · exact .inr ⟨_, by rw [hone]; rfl, by rw [hplan.keeps.kind]; rfl⟩

/-- The tasks of a plan do not move the vehicle, unless they are drives, and none of them
charges. -/
theorem Vehicle.evaluate_stays {ctx : DispatchContext R} {v : Vehicle R} {request : Request}
    {plan : Insertion R} (h : v.evaluate ctx request = .ok plan) :
    ∀ task ∈ plan.tasks, (task.kind.isDrive = true ∨ task.source = task.target) ∧
      ∀ charger, task.kind ≠ .charge charger := by
  obtain ⟨slot, approach, ride, wait, f, hplan⟩ := evaluate_ok h
  obtain ⟨hwait, hstays⟩ := Request.boarding_ok hplan.boards
  intro task htask
  rw [hplan.tasks] at htask
  obtain ⟨plain, hplain, rfl⟩ := List.mem_map.mp htask
  rw [hplan.keeps.kind, hplan.keeps.source, hplan.keeps.target]
  have hdrive (hdrive : plain.kind.isDrive = true) : ∀ charger, plain.kind ≠ .charge charger := by
    intro charger hkind
    simp [hkind, TaskKind.isDrive] at hdrive
  simp only [serviceTasks, List.mem_append, List.mem_singleton] at hplain
  rcases hplain with (((happroach | hplain) | rfl) | hride) | rfl
  · have := Route.drives_isDrive approach plain happroach
    exact ⟨.inl this, hdrive this⟩
  · obtain ⟨charger, hkind⟩ := Task.kind_of_isStay (hstays plain hplain)
    exact ⟨(hwait.mem plain hplain).1.stays, by simp [hkind]⟩
  · exact ⟨.inr rfl, by simp [Task.pickup]⟩
  · have := Route.drives_isDrive ride plain hride
    exact ⟨.inl this, hdrive this⟩
  · exact ⟨.inr rfl, by simp [Task.dropoff]⟩

/-! ## Charging sessions -/

omit [Scalar R] in
/-- What is left of some items, of which each may replace the one chosen so far, is one of them. -/
theorem choice_mem {α : Type} {choose : Option α → α → Option α}
    (hchoose : ∀ best item a, choose best item = some a → best = some a ∨ a = item)
    {items : List α} {best : Option α} {a : α} (h : items.foldl choose best = some a) :
    best = some a ∨ a ∈ items := by
  induction items generalizing best with
  | nil => exact .inl h
  | cons item rest ih =>
    rcases ih h with hbest | hrest
    · rcases hchoose best item a hbest with hbest | rfl
      · exact .inl hbest
      · exact .inr List.mem_cons_self
    · exact .inr (List.mem_cons_of_mem _ hrest)

namespace ChargingPlanner

omit [Scalar R] in
theorem soonest_mem {sessions : List (Session R)} {session : Session R}
    (h : soonest sessions = some session) : session ∈ sessions := by
  unfold soonest at h
  refine (choice_mem (fun best item a ha => ?_) h).resolve_left (by simp)
  split at ha
  · exact .inr (Option.some.inj ha).symm
  · split at ha
    · exact .inr (Option.some.inj ha).symm
    · exact .inl ha

/-- What a charger offers along a route: to be charged from the arrival on, for some time before the
idle time ends. -/
theorem session?_eq_some {planner : ChargingPlanner R} {v : Vehicle R} {profile : EnergyProfile R}
    {slot : Slot} {charge : R} {charger : Charger R} {route : Route R} {session : Session R}
    (h : planner.session? v profile slot charge charger route = some session) :
    ∃ f g, KeepsWork f ∧ KeepsWork g ∧ session.depart = slot.depart ∧
      session.tasks = route.drives.map f ++
        [g (Task.charge charger.id charger.node route.arrival session.assignment.finish)] ∧
      session.assignment.charger = charger.id ∧ session.assignment.start = route.arrival ∧
      route.arrival < session.assignment.finish ∧ session.assignment.finish ≤ slot.limit ∧
      (v.project? session.depart session.tasks).any Projection.isFeasible = true ∧
      session.assignment.vehicle = v.id ∧
      ∀ task, (g task).energy = some session.assignment.energy := by
  unfold session? at h
  dsimp only at h
  split at h
  · split at h
    · cases h
    next hlasts =>
      split at h
      next hpowered =>
        cases h
        refine ⟨_, fun task => task.withEnergy _, .withEnergy fun _ => _, .withEnergy fun _ => _,
          rfl, rfl, rfl, rfl, Nat.lt_of_not_le hlasts, ?_, hpowered, rfl, fun _ => rfl⟩
        exact Time.min_le_right _ _
      · cases h
  · cases h

/-- How a charging session comes about: a charger with a free plug offers it along a leg from the
open idle time. -/
structure Reaches (planner : ChargingPlanner R) (network : Network R) (router : Router R)
    (now : Time) (pool : ChargerPool R) (bookings : List Booking) (v : Vehicle R)
    (session : Session R) (slot : Slot) (charger : Charger R) (route : Route R)
    (f g : Task R → Task R) : Prop where
  opens : v.openSlot? now = some slot
  known : charger ∈ pool.chargers
  drives : routeLeg? network router slot.node charger.node slot.depart = some route
  depart : session.depart = slot.depart
  /-- The energy of each task is noted in it. -/
  keepsDrives : KeepsWork f
  keepsCharge : KeepsWork g
  tasks : session.tasks = route.drives.map f ++
    [g (Task.charge charger.id charger.node route.arrival session.assignment.finish)]
  id : session.assignment.charger = charger.id
  start : session.assignment.start = route.arrival
  lasts : route.arrival < session.assignment.finish
  limit : session.assignment.finish ≤ slot.limit
  /-- A plug is free for as long as the session may last. -/
  room : hasRoom bookings charger.plugs
    (.ofSession planner.grid charger.id route.arrival session.assignment.finish) = true
  powered : (v.project? session.depart session.tasks).any Projection.isFeasible = true
  vehicle : session.assignment.vehicle = v.id
  /-- The energy that is gained is reported. -/
  energy : ∀ task, (g task).energy = some session.assignment.energy

theorem sessionFor?_eq_some {planner : ChargingPlanner R} {network : Network R} {router : Router R}
    {now : Time} {pool : ChargerPool R} {bookings : List Booking} {v : Vehicle R}
    {session : Session R}
    (h : planner.sessionFor? network router now pool bookings v = some session) :
    ∃ slot charger route f g,
      planner.Reaches network router now pool bookings v session slot charger route f g := by
  unfold sessionFor? at h
  simp only [Option.bind_eq_bind, Option.bind_eq_some_iff] at h
  obtain ⟨profile, -, ⟨index, stay⟩, -, h⟩ := h
  split at h
  · cases h
  · simp only [Option.bind_eq_some_iff] at h
    obtain ⟨slot, hslot, projection, -, h⟩ := h
    split at h
    · cases h
    · have hoffer := soonest_mem h
      simp only [offers, List.mem_filterMap, Option.bind_eq_bind, Option.bind_eq_some_iff] at hoffer
      obtain ⟨charger, hcharger, route, hroute, offered, hoffered, hroom⟩ := hoffer
      split at hroom
      next hfree =>
        cases hroom
        obtain ⟨f, g, hf, hg, hdepart, htasks, hid, hstart, hlasts, hlimit, hpowered, hvehicle,
          henergy⟩ := session?_eq_some hoffered
        rw [hstart] at hfree
        exact ⟨slot, charger, route, f, g, hslot, hcharger, hroute, hdepart, hf, hg, htasks, hid,
          hstart, hlasts, hlimit, hfree, hpowered, hvehicle, henergy⟩
      · cases hroom

omit [Scalar R] in
/-- The tasks of a session lead from the open idle time to its end at the charger. -/
theorem session_leads {network : Network R} {router : Router R} (hrouter : router.Sound)
    {slot : Slot} {charger : Charger R} {route : Route R} {finish : Time} {f g : Task R → Task R}
    (hroute : routeLeg? network router slot.node charger.node slot.depart = some route)
    (hlast : slot.depart < .last) (hf : KeepsWork f) (hg : KeepsWork g)
    (hlasts : route.arrival < finish) :
    Leads slot.node slot.depart (route.drives.map f ++
      [g (Task.charge charger.id charger.node route.arrival finish)]) charger.node finish := by
  obtain ⟨hjoins, hdrives⟩ := routeLeg?_joins hrouter hroute
  have hsound : (Task.charge charger.id charger.node route.arrival finish : Task R).Sound :=
    ⟨hlasts, .inr rfl⟩
  have hcharge : Leads charger.node route.arrival
      [Task.charge charger.id charger.node route.arrival finish] charger.node finish :=
    .cons hsound rfl (.nil _ _)
  have hdrive : Leads slot.node slot.depart route.drives charger.node route.arrival :=
    hjoins.leads fun hlinks => hdrives hlinks hlast
  exact (hdrive.map hf).append (hcharge.map hg)

end ChargingPlanner

end DemandTransport
