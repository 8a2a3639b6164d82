import DemandTransport.Proofs.Dispatch.Planning
import Mathlib.Logic.Relation

/-!
# What can happen to a vehicle

Between the begin of its horizon and some later moment a vehicle is given trips and charging
sessions, has trips taken back and carries out its schedule. None of this has to succeed. Whatever
happens, passengers are carried one after the other, each of them once, and the idle time at the end
of the schedule follows directly on work or on what has been begun: nothing that only leads up to
work is left over in front of it.
-/

namespace DemandTransport

variable {R : Type} [Scalar R]

/-! ## Execution -/

/-- A property of vehicles that the changes made by execution keep. -/
structure Vehicle.Withstands (P : Vehicle R → Prop) : Prop where
  advanceTask : ∀ {v v' index status t gain}, P v →
    v.advanceTask index status t = .ok (gain, v') → P v'
  forfeitEnergy : ∀ {v v' index}, P v → v.forfeitEnergy index = .ok v' → P v'

namespace VehicleState

variable {P : Vehicle R → Prop} {state : VehicleState R} {index : Nat} {task : Task R} {now : Time}

theorem advanceTask_keeps (hP : Vehicle.Withstands P) (status : TaskStatus) (t : Time)
    (h : P state.vehicle) :
    (advanceTask index status t).Ends state (fun _ left => P left.vehicle)
      fun _ left => P left.vehicle := by
  simp only [advanceTask, Vehicle.InPlace.advanceTask_eq, Action.ends_mapError,
    Action.ends_within, Action.ends_entirely]
  split
  next hrun => exact hP.advanceTask h hrun
  next => exact h

theorem plugIn_keeps (hP : Vehicle.Withstands P) (charger : ChargerId) (h : P state.vehicle) :
    (plugIn index charger).Ends state (fun _ left => P left.vehicle)
      fun _ left => P left.vehicle := by
  simp only [plugIn, Action.ends_bind, Action.ends_get]
  split
  · exact h
  · simp only [forfeit, Vehicle.InPlace.forfeitEnergy_eq, Action.ends_bind, Action.ends_mapError,
      Action.ends_within, Action.ends_change, Action.ends_pure]
    split
    next hrun => exact hP.forfeitEnergy h hrun
    next => exact h
  · exact h

omit [Scalar R] in
theorem unplug_keeps (charger : ChargerId) (h : P state.vehicle) :
    (unplug charger).Ends state (fun _ left => P left.vehicle) fun _ left => P left.vehicle := by
  simp only [unplug, Action.ends_bind, Action.ends_get]
  split <;> exact h

theorem startTask_keeps (hP : Vehicle.Withstands P) (h : P state.vehicle) :
    (startTask index task).Ends state (fun _ left => P left.vehicle)
      fun _ left => P left.vehicle := by
  simp only [startTask, Action.ends_bind, Action.ends_get]
  refine (advanceTask_keeps hP .started task.start h).mono ?_ fun _ _ h => h
  intro energy mid hmid
  cases hkind : task.kind with
  | charge charger =>
    simp only [Action.ends_bind]
    exact (plugIn_keeps hP charger hmid).mono (fun _ _ h => h) fun _ _ h => h
  | stay _ | drive _ | pickup _ | dropoff _ => exact hmid

theorem endTask_keeps (hP : Vehicle.Withstands P) (h : P state.vehicle) :
    (endTask index task).Ends state (fun _ left => P left.vehicle)
      fun _ left => P left.vehicle := by
  simp only [endTask, Action.ends_bind, Action.ends_get]
  refine (advanceTask_keeps hP .performed task.finish h).mono ?_ fun _ _ h => h
  intro energy mid hmid
  cases hkind : task.kind with
  | charge charger =>
    simp only [Action.ends_bind]
    exact (unplug_keeps charger hmid).mono (fun _ _ h => h) fun _ _ h => h
  | stay _ | drive _ | pickup _ | dropoff _ => exact hmid

/-- Execution keeps what its changes keep, even where it fails. -/
theorem advance_keeps (hP : Vehicle.Withstands P) (h : P state.vehicle) :
    (advance now).Ends state (fun _ left => P left.vehicle) fun _ left => P left.vehicle := by
  have honce {state : VehicleState R} (h : P state.vehicle) :
      (advanceOnce now).Ends state (fun _ left => P left.vehicle) fun _ left => P left.vehicle := by
    simp only [advanceOnce, Action.ends_bind, Action.ends_get]
    split
    · exact h
    · split
      · rw [Action.ends_map]
        exact startTask_keeps hP h
      · split
        · rw [Action.ends_map]
          exact endTask_keeps hP h
        · exact h
  have hupTo (bound : Nat) {state : VehicleState R} (h : P state.vehicle) :
      (advanceUpTo now bound).Ends state (fun _ left => P left.vehicle)
        fun _ left => P left.vehicle := by
    induction bound generalizing state with
    | zero => exact h
    | succ bound ih =>
      rw [advanceUpTo, Action.ends_bind]
      refine (honce h).mono ?_ fun _ _ h => h
      rintro (_ | event) mid hmid
      · exact hmid
      · rw [Action.ends_bind]
        exact (ih hmid).mono (fun _ _ h => h) fun _ _ h => h
  simp only [advance, Action.ends_bind, Action.ends_get]
  exact hupTo _ h

end VehicleState

/-! ## Vehicles in order -/

namespace Schedule

variable {before after : List (Task R)} {task task' : Task R}

/-- The idle time at the end of a schedule follows on work or on what has been begun. -/
def Settles (s : Schedule R) : Prop :=
  ∀ before stay, s.tasks = before ++ [stay] → stay.isStay = true →
    ∀ last ∈ before.getLast?, Vehicle.isApproach last = false

omit [Scalar R] in
/-- Only the last two tasks matter. -/
theorem settles_append {stay : Task R} :
    Settles ⟨before ++ [stay]⟩ ↔
      (stay.isStay = true → ∀ last ∈ before.getLast?, Vehicle.isApproach last = false) := by
  constructor
  · intro h
    exact h before stay rfl
  · intro h front found htasks
    obtain ⟨rfl, hlast⟩ := List.append_inj' htasks rfl
    obtain rfl : stay = found := by simpa using hlast
    exact h

omit [Scalar R] in
/-- A schedule that does not end with idle time is settled. -/
theorem settles_of_work {work : Task R} (hwork : work.isStay = false) :
    Settles ⟨before ++ [work]⟩ := by
  rw [settles_append]
  intro hstay
  simp [hwork] at hstay

omit [Scalar R] in
/-- A schedule stays settled while its last two tasks stay. -/
theorem Settles.of_suffix {before' : List (Task R)} {second last : Task R}
    (h : Settles ⟨before ++ [second, last]⟩) : Settles ⟨before' ++ [second, last]⟩ := by
  have hsplit (front : List (Task R)) : front ++ [second, last] = front ++ [second] ++ [last] := by
    simp
  rw [hsplit, settles_append, List.getLast?_concat] at h ⊢
  exact h

omit [Scalar R] in
/-- A schedule stays settled while a task changes that is still of the same kind, and that only
leads up to work if it did so before. -/
theorem Settles.replace (h : Settles ⟨before ++ task :: after⟩) (hkind : task'.kind = task.kind)
    (happroach : Vehicle.isApproach task' = true → Vehicle.isApproach task = true) :
    Settles ⟨before ++ task' :: after⟩ := by
  have hstay : task'.isStay = task.isStay := by
    unfold Task.isStay
    rw [hkind]
  rcases List.eq_nil_or_concat after with rfl | ⟨front, last, rfl⟩
  · rw [settles_append] at h ⊢
    rwa [hstay]
  · rw [List.concat_eq_append] at h ⊢
    rcases List.eq_nil_or_concat front with rfl | ⟨middle, second, rfl⟩
    · have hsplit (task : Task R) :
          before ++ task :: ([] ++ [last]) = before ++ [task] ++ [last] := by simp
      rw [hsplit, settles_append, List.getLast?_concat] at h ⊢
      rintro hlast _ ⟨⟩
      by_contra hnew
      have hold := h hlast task rfl
      simp [happroach (by simpa using hnew)] at hold
    · have hsplit (task : Task R) : before ++ task :: (middle.concat second ++ [last]) =
          (before ++ task :: middle) ++ [second, last] := by simp
      rw [hsplit] at h ⊢
      exact h.of_suffix

omit [Scalar R] in
/-- Passengers are carried as before while a task changes that is still of the same kind. -/
theorem Paired.replace (h : Paired ⟨before ++ task :: after⟩) (hkind : task'.kind = task.kind) :
    Paired ⟨before ++ task' :: after⟩ := by
  unfold Paired at *
  simp only [Ride.after?_append, Ride.after?, hkind] at h ⊢
  exact h

omit [Scalar R] in
theorem length_visits_replace (hkind : task'.kind = task.kind) (e : TripEnd)
    (request : RequestId) :
    (visits ⟨before ++ task' :: after⟩ e request).length =
      (visits ⟨before ++ task :: after⟩ e request).length := by
  have hserves : e.serves request task' = e.serves request task := by
    cases e <;> simp only [TripEnd.serves, Vehicle.isPickupOf, Vehicle.isDropoffOf, hkind]
  simp only [visits, List.length_map, List.filter_append, List.filter_cons, hserves]
  split <;> simp

end Schedule

namespace Vehicle

/-- A vehicle that carries passengers one after the other, each of them once, over a horizon that
ends before the last instant there is, and that leaves no approach in front of its idle time. -/
structure InOrder (v : Vehicle R) : Prop where
  valid : v.schedule.ValidOver v.start v.finish
  horizon : v.finish < .last
  paired : v.schedule.Paired
  once : ∀ e request, (v.schedule.visits e request).length ≤ 1
  settles : v.schedule.Settles

variable {v v' : Vehicle R}

namespace InOrder

/-- A new vehicle is idle. -/
theorem of_isNew (hnew : v.IsNew) (hlast : v.finish < .last) : v.InOrder := by
  obtain ⟨stay, htasks, hidle, -⟩ := hnew.tasks
  have hvalid := hnew.schedule.validOver
  have hschedule := Schedule.eq_of_tasks htasks
  have hnone : ∀ task ∈ [stay], task.isStay = true := by simpa using hidle
  refine ⟨hvalid, hlast, ?_, fun e request => ?_, ?_⟩ <;> rw [hschedule]
  · exact Ride.after?_free fun task htask => Task.request?_eq_none (.inl (hnone task htask))
  · rw [Schedule.visits_idle hnone]
    exact Nat.zero_le 1
  · refine (@Schedule.settles_append R [] stay).mpr ?_
    simp

omit [Scalar R] in
/-- A vehicle stays in order while one of its tasks changes that is still of the same kind, and that
only leads up to work if it did so before. -/
theorem replace {before after : List (Task R)} {task task' : Task R} (h : v.InOrder)
    (htasks : v.schedule.tasks = before ++ task :: after) (hkind : task'.kind = task.kind)
    (happroach : isApproach task' = true → isApproach task = true)
    (htasks' : v'.schedule.tasks = before ++ task' :: after) (hfinish : v'.finish = v.finish)
    (hvalid : v'.schedule.ValidOver v'.start v'.finish) : v'.InOrder := by
  have hschedule := Schedule.eq_of_tasks htasks
  have hschedule' := Schedule.eq_of_tasks htasks'
  refine ⟨hvalid, hfinish ▸ h.horizon, ?_, fun e request => ?_, ?_⟩ <;> rw [hschedule']
  · exact Schedule.Paired.replace (hschedule ▸ h.paired) hkind
  · rw [Schedule.length_visits_replace hkind, ← hschedule]
    exact h.once e request
  · exact Schedule.Settles.replace (hschedule ▸ h.settles) hkind happroach

/-- What execution changes keeps a vehicle in order. -/
theorem withstands : Withstands (InOrder (R := R)) where
  advanceTask {v v' index status t gain} h hrun := by
    obtain ⟨task', hadvance, hsame⟩ := advanceTask_ok hrun
    have hstart : v'.start = v.start := by rw [hsame]
    have hfinish : v'.finish = v.finish := by rw [hsame]
    obtain ⟨before, task, after, htasks, -, hnext, -, rfl, hschedule⟩ :=
      Schedule.advance_ok hadvance
    have hbecomes := Task.becomes_advanced hnext t
    refine h.replace htasks hbecomes.kind ?_ (congrArg Schedule.tasks hschedule) hfinish ?_
    · intro happroach
      have hplanned := (isApproach_iff.mp happroach).2
      rw [hbecomes.status] at hplanned
      cases hstatus : task.status <;> simp [hstatus, hplanned, TaskStatus.next?] at hnext
    · rw [hstart, hfinish]
      exact h.valid.advance hadvance
  forfeitEnergy {v v' index} h hrun := by
    obtain ⟨kwh, s, hoverride, rfl⟩ := forfeitEnergy_ok hrun
    obtain ⟨before, task, after, htasks, -, -, rfl⟩ := Schedule.overrideEnergy_ok hoverride
    exact @replace R v { v with schedule := _ } before after task (task.withEnergy kwh) h htasks rfl
      (fun happroach => happroach) rfl rfl (h.valid.overrideEnergy hoverride)

/-- Work that has been written keeps a vehicle in order, if it leaves a free vehicle free and visits
nobody whom the vehicle visits already. -/
theorem written {before front : List (Task R)} {stay work : Task R} {depart : Time}
    (h : v.InOrder) (hwritten : Written before stay depart (front ++ [work]) v v')
    (hvalid : v'.schedule.ValidOver v.start v.finish) (hstay : work.isStay = false)
    (hdrive : work.kind.isDrive = false)
    (hfree : Ride.free.after? (front ++ [work]) = some .free)
    (hvisits : ∀ e request, (v.schedule.visits e request).length +
      (Schedule.visits ⟨front ++ [work]⟩ e request).length ≤ 1) : v'.InOrder := by
  obtain ⟨hpaired, hnew⟩ := hwritten.visits h.paired hfree
  have hsame := hwritten.same
  have hsettles : v'.schedule.Settles := by
    rw [Schedule.eq_of_tasks hwritten.new]
    have hlength := Schedule.leftover_length_le (stay.partFrom depart) (front ++ [work])
    generalize Schedule.leftover (stay.partFrom depart) (front ++ [work]) = rest at hlength
    rw [← List.append_assoc]
    match rest, hlength with
    | [], _ =>
      rw [List.append_nil]
      exact Schedule.settles_of_work hstay
    | [left], _ =>
      have hwork : isApproach work = false := by simp [isApproach, hstay, hdrive]
      refine Schedule.settles_append.mpr fun _ last hlast => ?_
      obtain rfl : work = last := by simpa [← List.append_assoc] using hlast
      exact hwork
  refine ⟨?_, ?_, hpaired, fun e request => ?_, hsettles⟩
  · rw [hsame]
    exact hvalid
  · rw [hsame]
    exact h.horizon
  · rw [hnew, List.length_append]
    exact hvisits e request

/-- A plan that has been carried out keeps a vehicle in order, if its request is new to the
vehicle. -/
theorem commit {ctx : DispatchContext R} {request : Request} {plan : Insertion R} (h : v.InOrder)
    (hctx : Dispatcher.Ready ctx.config ctx.router)
    (hnew : ∀ task ∈ v.schedule.tasks, task.kind.request? ≠ some request.id)
    (heval : v.evaluate ctx request = .ok plan) (hrun : Vehicle.commit plan v = .ok () v') :
    v'.InOrder := by
  have hlast : v.schedule.finish < .last := h.valid.ends ▸ h.horizon
  obtain ⟨node, before, stay, t, hwritten, hne, ht, hleads⟩ :=
    (commit_written hctx h.valid.toValid hlast heval).of_ok hrun
  have hvalid := ((@commit_replanned R _ {} ctx v request plan h.valid heval).of_ok hrun).schedule
  obtain ⟨approach, pickup, ride, dropoff, htasks, -, -, -, halights⟩ := evaluate_trip heval
  have hsplit : plan.tasks = (approach ++ pickup :: ride) ++ [dropoff] := by simp [htasks]
  have hvisits := plan_visits heval fun task htask => (hleads.mem task htask).2
  have hfree := plan_free heval
  rw [hsplit] at hwritten hvisits hfree
  refine h.written hwritten (hvalid.valid h.valid) ?_ ?_ hfree fun e other => ?_
  · simp [Task.isStay, halights, TaskKind.isStay]
  · simp [halights, TaskKind.isDrive]
  · rw [hvisits]
    by_cases hother : other = request.id
    · have hnone : v.schedule.visits e request.id = [] := Schedule.visits_eq_nil hnew
      simp [hother, hnone]
    · simpa [hother] using h.once e other

/-- So does a charging session that has been planned. -/
theorem turn {planner : ChargingPlanner R} {network : Network R} {router : Router R} {now : Time}
    {pool : ChargerPool R} {report : List (ChargingAssignment R)} (h : v.InOrder)
    (hrouter : router.Sound) (hturn : planner.Turn network router now pool v v' report) :
    v'.InOrder := by
  cases hturn with
  | nothing => exact h
  | @session _ _ session found written =>
    obtain ⟨_, before, stay, _, _, hwritten, -⟩ :=
      (ChargingPlanner.session_written hrouter h.valid.toValid found).of_ok written
    have hvalid := ((@insertAt_replanned R {} _ v _ _ _ _ h.valid
      (ChargingPlanner.session_books found).2).of_ok written).schedule
    have hnone := ChargingPlanner.session_request? found
    obtain ⟨slot, charger, route, f, g, hmade⟩ := ChargingPlanner.sessionFor?_eq_some found
    have hkind := hmade.keepsCharge.kind
      (Task.charge charger.id charger.node route.arrival session.assignment.finish)
    rw [hmade.tasks] at hwritten hnone
    refine h.written hwritten (hvalid.valid h.valid) ?_ ?_ (Ride.after?_free hnone) ?_
    · rw [Task.isStay, hkind]
      rfl
    · rw [hkind]
      rfl
    · intro e request
      have hnew : Schedule.visits ⟨route.drives.map f ++ [g (Task.charge charger.id charger.node
          route.arrival session.assignment.finish)]⟩ e request = [] :=
        Schedule.visits_eq_nil fun task htask => by simp [hnone task htask]
      rw [hnew]
      exact h.once e request

/-- A planned trip that is taken back leaves no approach in front of the idle time. -/
theorem retract_settles {request : RequestId} {before ride after : List (Task R)}
    {pickup dropoff : Task R} (trip : Trip v request before ride after pickup dropoff)
    (h : v.InOrder) (hwaits : pickup.status = .planned) :
    (Vehicle.retract request).Ends v (fun _ v' => v'.schedule.Settles) fun _ _ => False := by
  by_cases hidle : ∀ task ∈ after, task.isStay = true
  · obtain ⟨first, rest, htasks, hplanned, -⟩ :=
      trip.exists_front h.valid.toValid hwaits hidle
    refine (retract_reclaims trip.toErrand hwaits hidle htasks hplanned).mono ?_
      fun _ _ hends => hends
    rintro - v' rfl
    exact Schedule.settles_append.mpr fun _ => isApproach_getLast?
  · refine (retract_vacates trip.toErrand h.valid.toValid hwaits hidle).mono ?_
      fun _ _ hends => hends
    rintro - v' rfl
    have hsettles : Schedule.Settles ⟨before ++ pickup :: (ride ++ dropoff :: after)⟩ := by
      rw [← Schedule.eq_of_tasks trip.tasks]
      exact h.settles
    change Schedule.Settles ⟨_⟩
    rcases List.eq_nil_or_concat after with rfl | ⟨front, last, rfl⟩
    · simp at hidle
    · rw [List.concat_eq_append] at hsettles hidle ⊢
      have hassoc (pickup dropoff : Task R) (after : List (Task R)) :
          before ++ pickup :: (ride ++ dropoff :: (after ++ [last])) =
            (before ++ pickup :: (ride ++ dropoff :: after)) ++ [last] := by simp
      by_cases hlast : last.isStay = true
      · rcases List.eq_nil_or_concat front with rfl | ⟨middle, second, rfl⟩
        · simp [hlast] at hidle
        · have hsplit (pickup dropoff : Task R) :
              before ++ pickup :: (ride ++ dropoff :: (middle.concat second ++ [last])) =
                (before ++ pickup :: (ride ++ dropoff :: middle)) ++ [second, last] := by simp
          rw [hsplit] at hsettles ⊢
          exact hsettles.of_suffix
      · rw [hassoc]
        exact Schedule.settles_of_work (by simpa using hlast)

/-- Taking a request back, whether it succeeds or not, keeps a vehicle in order. -/
theorem retract (h : v.InOrder) (request : RequestId) :
    (Vehicle.retract request).Ends v (fun _ v' => v'.InOrder) fun _ v' => v'.InOrder := by
  by_cases hserved : ∃ pickup ∈ v.schedule.tasks, pickup.kind = .pickup request
  · obtain ⟨pickup, hmem, hboards⟩ := hserved
    obtain ⟨before, rest, htasks⟩ := List.append_of_mem hmem
    obtain ⟨ride, dropoff, after, rfl, trip⟩ :=
      Trip.of_pickup h.paired (fun e => h.once e request) htasks hboards
    have hreplanned := @retract_replanned R {} _ v request
    by_cases hwaits : pickup.status = .planned
    · refine (((retract_settles trip h hwaits).and (retract_ends trip h.valid.toValid)).and
        hreplanned).mono ?_ fun _ _ hfails => hfails.1.1.elim
      rintro - v' ⟨⟨hsettles, -, hpaired, hvisits, -⟩, hplanned⟩
      have hsame := hplanned.same
      refine ⟨?_, ?_, hpaired, fun e other => ?_, hsettles⟩
      · rw [hsame]
        exact hplanned.schedule.valid h.valid
      · rw [hsame]
        exact h.horizon
      · rw [hvisits]
        split
        · exact Nat.zero_le 1
        · exact h.once e other
    · refine (retract_refused trip.toErrand hwaits).mono (fun _ _ hends => hends.elim) ?_
      rintro - v' rfl
      exact h
  · have hnone : v.schedule.tasks.findIdx? (isPickupOf request) = none := by
      rw [List.findIdx?_eq_none_iff]
      intro task htask
      refine Bool.eq_false_iff.mpr fun hserves => ?_
      exact hserved ⟨task, htask, TripEnd.serves_boarding.mp hserves⟩
    have hmissing : v.tripOf request = .error .notScheduled := by
      simp only [tripOf, hnone]
    simp only [Vehicle.retract, Action.ends_bind, Action.ends_get, hmissing]
    exact h

end InOrder

/-! ## Histories -/

/-- What can happen to a vehicle at one moment. -/
inductive Undergoes : Vehicle R → Vehicle R → Prop where
  /-- It is given the trip of a request that it does not serve yet. -/
  | trip {network : Network R} {config : DispatchConfig} {now : Time} {v v' : Vehicle R}
    {request : Request} {plan : Insertion R}
    (fresh : ∀ task ∈ v.schedule.tasks, task.kind.request? ≠ some request.id)
    (evaluated : v.evaluate ⟨network, LeastTime.route, config, now⟩ request = .ok plan)
    (committed : commit plan v = .ok () v') : Undergoes v v'
  /-- It may be sent to charge. -/
  | charging {planner : ChargingPlanner R} {network : Network R} {now : Time}
    {pool : ChargerPool R} {v v' : Vehicle R} {report : List (ChargingAssignment R)}
    (turn : planner.Turn network LeastTime.route now pool v v' report) : Undergoes v v'
  /-- It carries out its schedule, as far as this succeeds. -/
  | execution (now : Time) (state : VehicleState R) :
    Undergoes state.vehicle ((VehicleState.advance now).outcome state).2.vehicle
  /-- A request is taken back, if this can be done. -/
  | retraction (request : RequestId) (v : Vehicle R) :
    Undergoes v ((Vehicle.retract request).outcome v).2

namespace InOrder

/-- Whatever happens at one moment keeps a vehicle in order. -/
theorem undergoes (h : v.InOrder) (hstep : Undergoes v v') : v'.InOrder := by
  cases hstep with
  | trip fresh evaluated committed =>
    have hconfig := validate_of_commit evaluated committed
    exact h.commit (.of_validate LeastTime.route_sound hconfig) fresh evaluated committed
  | charging turn => exact h.turn LeastTime.route_sound turn
  | execution now state =>
    exact (VehicleState.advance_keeps withstands h).outcome
      (P := fun left : VehicleState R => left.vehicle.InOrder)
  | retraction request => exact (h.retract request).outcome

/-- A new vehicle is in order at every moment of its life. -/
theorem of_life {v₀ : Vehicle R} (hnew : v₀.IsNew) (hlast : v₀.finish < .last)
    (hlife : Relation.ReflTransGen Undergoes v₀ v) : v.InOrder := by
  induction hlife with
  | refl => exact of_isNew hnew hlast
  | tail _ hstep ih => exact ih.undergoes hstep

end InOrder

end Vehicle

end DemandTransport
