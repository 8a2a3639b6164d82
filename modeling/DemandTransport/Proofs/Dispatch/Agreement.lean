import DemandTransport.Proofs.Demand.Lifecycle
import DemandTransport.Proofs.Fleet.Roster
import DemandTransport.Proofs.Schedule.Trips
import DemandTransport.Simulation.Step

/-!
# Registry and schedules agree

The stops of a request in a fleet are its pickups or its dropoffs in all schedules, each with its
vehicle and whether it is over. The registry promises one stop at each end of the trip for a request
that is planned or performed, with the vehicle that was found for it, and none for any other. Both
agree in a new simulation, and a beat of execution with what the registry notes of it keeps them in
agreement: the change that the registry has to make is never refused.
-/

namespace DemandTransport

variable {R : Type}

/-! ## Stops -/

/-- The kind of task that serves a request at one end of its trip. -/
def TripEnd.kind (R : Type) : TripEnd → RequestId → TaskKind R
  | boarding => .pickup
  | alighting => .dropoff

theorem TripEnd.serves_iff {e : TripEnd} {request : RequestId} {task : Task R} :
    e.serves request task = true ↔ task.kind = e.kind R request := by
  cases e
  · exact serves_boarding
  · exact serves_alighting

theorem TripEnd.kind_inj {e e' : TripEnd} {request request' : RequestId} :
    e.kind R request = e'.kind R request' ↔ e = e' ∧ request = request' := by
  cases e <;> cases e' <;> simp [kind]

/-- The stops of a request in the schedules of some vehicles. -/
def stops (vehicles : List (Vehicle R)) (e : TripEnd) (request : RequestId) :
    List (VehicleId × Bool) :=
  vehicles.flatMap fun v => (v.schedule.visits e request).map fun done => (v.id, done)

/-- Whether the registry has noted that one end of a trip is over. -/
def RequestEntry.isDone (entry : RequestEntry) : TripEnd → Bool
  | .boarding => entry.pickedUpAt.isSome
  | .alighting => entry.status = .performed

/-- The stops that the registry promises for an entry. -/
def RequestEntry.stops (entry : RequestEntry) (e : TripEnd) : List (VehicleId × Bool) :=
  if entry.status = .planned ∨ entry.status = .performed then
    entry.vehicle.toList.map fun vehicle => (vehicle, entry.isDone e)
  else []

/-- The stops that the registry promises for a request. -/
def Registry.stops (registry : Registry) (e : TripEnd) (request : RequestId) :
    List (VehicleId × Bool) :=
  ((registry.find? request).map fun entry => entry.stops e).getD []

section Stops

variable {a b : List (Vehicle R)} {v v' : Vehicle R} {e : TripEnd} {request : RequestId}

theorem stops_split : stops (a ++ v :: b) e request =
    stops a e request ++ (v.schedule.visits e request).map (fun done => (v.id, done)) ++
      stops b e request := by
  simp [stops]

theorem stops_eq_nil_iff {vehicles : List (Vehicle R)} :
    stops vehicles e request = [] ↔ ∀ v ∈ vehicles, v.schedule.visits e request = [] := by
  simp [stops, List.flatMap_eq_nil_iff]

/-- Where a vehicle's visits stay, so do all stops. -/
theorem stops_congr (hid : v'.id = v.id)
    (hvisits : v'.schedule.visits e request = v.schedule.visits e request) :
    stops (a ++ v' :: b) e request = stops (a ++ v :: b) e request := by
  rw [stops_split, stops_split, hid, hvisits]

/-- When no other vehicle stops for a request, the stops of one are all there are. -/
theorem stops_of_alone (h : stops (a ++ b) e request = []) : stops (a ++ v :: b) e request =
    (v.schedule.visits e request).map fun done => (v.id, done) := by
  unfold stops at h
  rw [List.flatMap_append] at h
  obtain ⟨ha, hb⟩ := List.append_eq_nil_iff.mp h
  rw [stops_split, stops, stops, ha, hb, List.append_nil, List.nil_append]

/-- When no vehicle stops for a request, neither does a certain one nor any other. -/
theorem stops_of_none (hnone : stops (a ++ v :: b) e request = []) :
    v.schedule.visits e request = [] ∧ stops (a ++ b) e request = [] := by
  rw [stops_eq_nil_iff] at *
  refine ⟨hnone v (by simp), fun w hw => hnone w ?_⟩
  rcases List.mem_append.mp hw with hw | hw <;> simp [hw]

/-- When the only stop for a request is that of a certain vehicle, no other one stops for it. -/
theorem stops_of_one {done : Bool} (h : Numbered (a ++ v :: b))
    (hone : stops (a ++ v :: b) e request = [(v.id, done)]) :
    v.schedule.visits e request = [done] ∧ stops (a ++ b) e request = [] := by
  have hnodup := h.nodup
  rw [List.map_append, List.map_cons] at hnodup
  have hothers {w : Vehicle R} (hw : w ∈ a ++ b) : w.id ≠ v.id := by
    intro heq
    obtain ⟨-, hrest, hcross⟩ := List.nodup_append.mp hnodup
    rcases List.mem_append.mp hw with hw | hw
    · exact hcross _ (List.mem_map_of_mem hw) _ List.mem_cons_self heq
    · exact (List.nodup_cons.mp hrest).1 (heq ▸ List.mem_map_of_mem hw)
  have halone : stops (a ++ b) e request = [] := by
    refine List.eq_nil_iff_forall_not_mem.mpr fun stop hstop => ?_
    obtain ⟨w, hw, hmem⟩ := List.mem_flatMap.mp hstop
    have hall : stop ∈ stops (a ++ v :: b) e request := by
      refine List.mem_flatMap.mpr ⟨w, ?_, hmem⟩
      rcases List.mem_append.mp hw with hw | hw <;> simp [hw]
    rw [hone, List.mem_singleton] at hall
    obtain ⟨done', -, rfl⟩ := List.mem_map.mp hmem
    exact hothers hw (congrArg Prod.fst hall)
  rw [stops_of_alone halone] at hone
  exact ⟨by simpa [List.map_eq_singleton_iff] using hone, halone⟩

end Stops

section Promises

variable {registry registry' : Registry} {entry : RequestEntry} {e : TripEnd} {request : RequestId}

theorem RequestEntry.stops_eq_nil (h : entry.status ≠ .planned ∧ entry.status ≠ .performed) :
    entry.stops e = [] := by
  simp [RequestEntry.stops, h]

theorem Registry.stops_of_find (h : registry.find? request = some entry) :
    registry.stops e request = entry.stops e := by
  simp [Registry.stops, h]

/-- A stop is promised only for a request that is planned or performed, with its vehicle. -/
theorem Registry.stops_of_mem {stop : VehicleId × Bool} (h : stop ∈ registry.stops e request) :
    ∃ entry, registry.find? request = some entry ∧
      (entry.status = .planned ∨ entry.status = .performed) ∧ entry.vehicle = some stop.1 ∧
      entry.isDone e = stop.2 ∧ registry.stops e request = [stop] := by
  cases hfind : registry.find? request with
  | none => simp [Registry.stops, hfind] at h
  | some entry =>
    have hstops : registry.stops e request = entry.stops e := Registry.stops_of_find hfind
    rw [hstops] at h ⊢
    unfold RequestEntry.stops at *
    split at h
    next hstatus =>
      cases hvehicle : entry.vehicle with
      | none => simp [hvehicle] at h
      | some vehicle =>
        rw [hvehicle] at h
        simp only [Option.toList_some, List.map_cons, List.map_nil, List.mem_singleton] at h
        subst h
        exact ⟨entry, rfl, hstatus, hvehicle, rfl, by simp [hstatus]⟩
    next => simp at h

theorem Registry.Becomes.stops (h : registry.Becomes registry' entry) (e : TripEnd)
    (request : RequestId) : registry'.stops e request =
      if request = entry.id then entry.stops e else registry.stops e request := by
  unfold Registry.stops
  rw [h.find]
  split <;> rfl

end Promises

/-! ## Agreement -/

/-- The vehicles of a run and its registry agree on every trip, and the registry does not know some
requests that are still to come. -/
structure Agreement (coming : List RequestId) (vehicles : List (Vehicle R)) (pool : ChargerPool R)
    (registry : Registry) : Prop where
  /-- The vehicles are in order. -/
  roster : Roster vehicles pool
  /-- Every horizon ends before the last instant there is. -/
  horizon : ∀ v ∈ vehicles, v.finish < .last
  /-- Every vehicle carries one passenger after the other. -/
  paired : ∀ v ∈ vehicles, v.schedule.Paired
  /-- The registry is sound. -/
  sound : registry.Sound
  /-- The stops in the schedules are those that the registry promises. -/
  agree : ∀ e request, stops vehicles e request = registry.stops e request
  /-- Requests that are still to come are unknown. -/
  unknown : ∀ id ∈ coming, registry.find? id = none

namespace Agreement

variable {coming : List RequestId} {a b vehicles : List (Vehicle R)} {v v' : Vehicle R}
  {pool pool' : ChargerPool R} {registry registry' : Registry} {entry : RequestEntry}
  {request : RequestId} {e : TripEnd}

/-- A new fleet agrees with an empty registry. -/
theorem of_isNew [Scalar R] {fleet : Fleet R} (h : fleet.IsNew)
    (hhorizon : ∀ v ∈ fleet.vehicles, v.finish < .last) (pool : ChargerPool R) :
    Agreement coming fleet.vehicles pool {} := by
  refine ⟨h.roster pool, hhorizon, fun v hv => ?_, Registry.sound_empty, fun e request => ?_,
    fun _ _ => rfl⟩
  · obtain ⟨stay, htasks, hidle, -⟩ := (h.vehicles v hv).tasks
    unfold Schedule.Paired
    rw [htasks]
    exact Ride.after?_free (by simpa using Task.request?_eq_none (.inl hidle))
  · refine stops_eq_nil_iff.mpr fun v hv => ?_
    obtain ⟨stay, htasks, hidle, -⟩ := (h.vehicles v hv).tasks
    rw [Schedule.eq_of_tasks htasks]
    exact Schedule.visits_idle (by simpa using hidle)

/-- One vehicle is replaced by another one of its number, and the registry by one that agrees. -/
theorem replace (h : Agreement coming (a ++ v :: b) pool registry)
    (hroster : Roster (a ++ v' :: b) pool') (hfinish : v'.finish = v.finish)
    (hpaired : v'.schedule.Paired) (hsound : registry'.Sound)
    (hagree : ∀ e request, stops (a ++ v' :: b) e request = registry'.stops e request)
    (hunknown : ∀ id ∈ coming, registry'.find? id = none) :
    Agreement coming (a ++ v' :: b) pool' registry' := by
  have hhorizon : v'.finish < .last := hfinish ▸ h.horizon v (by simp)
  exact ⟨hroster, forall_mem_replace h.horizon hhorizon, forall_mem_replace h.paired hpaired,
    hsound, hagree, hunknown⟩

/-- A change of an entry leaves requests that are still to come unknown. -/
theorem unknown_of_becomes (h : Agreement coming vehicles pool registry)
    (hbecomes : registry.Becomes registry' entry) (hknown : (registry.find? entry.id).isSome) :
    ∀ id ∈ coming, registry'.find? id = none := by
  intro id hid
  rw [hbecomes.find]
  split
  next heq => simp [← heq, h.unknown id hid] at hknown
  next => exact h.unknown id hid

/-- The registry changes the entry of a request for which no stop is promised any more. -/
theorem becomes (h : Agreement coming vehicles pool registry)
    (hbecomes : registry.Becomes registry' entry) (hknown : (registry.find? entry.id).isSome)
    (hstops : ∀ e, entry.stops e = registry.stops e entry.id) :
    Agreement coming vehicles pool registry' := by
  refine ⟨h.roster, h.horizon, h.paired, hbecomes.sound, fun e request => ?_,
    h.unknown_of_becomes hbecomes hknown⟩
  rw [hbecomes.stops, h.agree]
  split
  next heq => rw [hstops, heq]
  next => rfl

/-- A vehicle changes its visits of one request, and the registry the entry of that request. -/
theorem revisit (h : Agreement coming (a ++ v :: b) pool registry)
    (hroster : Roster (a ++ v' :: b) pool') (hid : v'.id = v.id) (hfinish : v'.finish = v.finish)
    (hpaired : v'.schedule.Paired)
    (hbecomes : registry.Becomes registry' entry) (hknown : (registry.find? entry.id).isSome)
    (hothers : ∀ e request, request ≠ entry.id →
      v'.schedule.visits e request = v.schedule.visits e request)
    (hstops : ∀ e, stops (a ++ v' :: b) e entry.id = entry.stops e) :
    Agreement coming (a ++ v' :: b) pool' registry' := by
  refine h.replace hroster hfinish hpaired hbecomes.sound (fun e request => ?_)
    (h.unknown_of_becomes hbecomes hknown)
  rw [hbecomes.stops]
  split
  next heq => rw [heq, hstops]
  next hne => rw [stops_congr hid (hothers e request hne), h.agree]

/-- A vehicle that visits a request is the one that was found for it, and the only one. -/
theorem of_visit (h : Agreement coming (a ++ v :: b) pool registry) {done : Bool}
    (hvisit : done ∈ v.schedule.visits e request) :
    ∃ entry, registry.find? request = some entry ∧
      (entry.status = .planned ∨ entry.status = .performed) ∧ entry.vehicle = some v.id ∧
      entry.isDone e = done ∧ stops (a ++ v :: b) e request = [(v.id, done)] := by
  have hmem : (v.id, done) ∈ registry.stops e request := by
    rw [← h.agree, stops_split]
    simp [hvisit]
  obtain ⟨entry, hfind, hstatus, hvehicle, hdone, hone⟩ := Registry.stops_of_mem hmem
  exact ⟨entry, hfind, hstatus, hvehicle, hdone, by rw [h.agree, hone]⟩

/-- The vehicle of a trip is in the fleet, and its stops are all there are. -/
theorem exists_vehicle (h : Agreement coming vehicles pool registry)
    (hfind : registry.find? request = some entry)
    (hstatus : entry.status = .planned ∨ entry.status = .performed) {id : VehicleId}
    (hvehicle : entry.vehicle = some id) :
    ∃ a v b, vehicles = a ++ v :: b ∧ v.id = id ∧ a.length = id.index ∧
      ∀ e, stops (a ++ v :: b) e request = [(v.id, entry.isDone e)] := by
  have hstops (e : TripEnd) : stops vehicles e request = [(id, entry.isDone e)] := by
    rw [h.agree, Registry.stops_of_find hfind]
    simp [RequestEntry.stops, hstatus, hvehicle]
  have hmem : (id, entry.isDone .boarding) ∈ stops vehicles .boarding request := by simp [hstops]
  obtain ⟨v, hv, hstop⟩ := List.mem_flatMap.mp hmem
  obtain ⟨done, -, heq⟩ := List.mem_map.mp hstop
  obtain ⟨a, b, rfl⟩ := List.append_of_mem hv
  obtain rfl : v.id = id := congrArg Prod.fst heq
  exact ⟨a, v, b, rfl, rfl, by rw [h.roster.numbered.id_eq], hstops⟩

/-- A request that is registered is stopped for nowhere. -/
theorem submit {request : Request} {later : List RequestId}
    (h : Agreement coming vehicles pool registry)
    (hsubmit : registry.submit request = .ok registry')
    (hlater : ∀ id ∈ later, id ∈ coming ∧ id ≠ request.id) :
    Agreement later vehicles pool registry' := by
  obtain ⟨hnew, hbecomes⟩ := h.sound.submit_ok hsubmit
  refine ⟨h.roster, h.horizon, h.paired, hbecomes.sound, fun e id => ?_, fun id hid => ?_⟩
  · rw [hbecomes.stops, h.agree]
    split
    next heq =>
      subst heq
      change registry.stops e request.id = _
      simp [Registry.stops, hnew, RequestEntry.stops]
    next => rfl
  · obtain ⟨hcoming, hne⟩ := hlater id hid
    exact (hbecomes.find id).trans ((if_neg hne).trans (h.unknown id hcoming))

end Agreement

/-! ## Execution -/

/-- An entry once one end of its trip is over. -/
def RequestEntry.visited (entry : RequestEntry) (t : Time) : TripEnd → RequestEntry
  | .boarding => { entry with pickedUpAt := some t }
  | .alighting => { entry with status := .performed, droppedOffAt := some t }

section Visits

variable {registry : Registry} {entry : RequestEntry} {request : RequestId} {e : TripEnd}
  {event : TaskEvent R}

theorem RequestEntry.visited_stops {vehicle : VehicleId} (hstatus : entry.status = .planned)
    (hvehicle : entry.vehicle = some vehicle) (t : Time) (e' : TripEnd) :
    (entry.visited t e).stops e' = if e' = e then [(vehicle, true)] else entry.stops e' := by
  cases e <;> cases e' <;>
    simp [RequestEntry.stops, visited, isDone, hstatus, hvehicle]

/-- The registry notes the end of a stop that it has promised. -/
theorem registryChange_visited (h : registry.Sound) (hfind : registry.find? request = some entry)
    (hstatus : entry.status = .planned) (hdone : entry.isDone e = false)
    (hphase : event.phase = .ended)
    (hactivity : event.activity = Activity.ofKind (e.kind R request)) :
    ∃ registry', Simulation.registryChange event registry = .ok registry' ∧
      registry.Becomes registry' (entry.visited event.time e) := by
  unfold Simulation.registryChange
  rw [hphase, hactivity]
  cases e with
  | boarding => exact h.markPickedUp hfind hstatus (by simpa [RequestEntry.isDone] using hdone) _
  | alighting => exact h.markPerformed hfind hstatus _

/-- It notes nothing else. -/
theorem registryChange_none (h : event.phase = .started ∨ event.activity.request? = none) :
    Simulation.registryChange event registry = .ok registry := by
  unfold Simulation.registryChange
  rcases h with h | h
  · rw [h]
  · cases hphase : event.phase <;> cases hactivity : event.activity <;>
      simp_all [Activity.request?]

end Visits

namespace Schedule

variable {before after : List (Task R)} {task task' : Task R} {e : TripEnd} {request : RequestId}

theorem visits_around (before : List (Task R)) (task : Task R) (after : List (Task R))
    (e : TripEnd) (request : RequestId) :
    visits ⟨before ++ task :: after⟩ e request =
      visits ⟨before⟩ e request ++ (visits ⟨[task]⟩ e request ++ visits ⟨after⟩ e request) := by
  rw [visits_append, visits_cons]

/-- A task with the work of another one changes no visit, unless it is this visit that is over
now. -/
theorem visits_replaced (hkind : task'.kind = task.kind)
    (h : task.kind = e.kind R request → (task'.status = .performed ↔ task.status = .performed)) :
    visits ⟨before ++ task' :: after⟩ e request = visits ⟨before ++ task :: after⟩ e request := by
  have hone : visits ⟨[task']⟩ e request = visits ⟨[task]⟩ e request := by
    have hserves : e.serves request task' = e.serves request task := by
      rw [Bool.eq_iff_iff, TripEnd.serves_iff, TripEnd.serves_iff, hkind]
    unfold visits
    simp only [List.filter_cons, hserves, List.filter_nil]
    split
    next hserved => simp [h (TripEnd.serves_iff.mp hserved)]
    next => rfl
  rw [visits_around, visits_around, hone]

/-- A visit that is made is over. -/
theorem visits_made (hkind : task'.kind = task.kind) (hserves : task.kind = e.kind R request)
    (hdone : task'.status = .performed)
    (hone : visits ⟨before ++ task :: after⟩ e request = [false]) :
    visits ⟨before ++ task' :: after⟩ e request = [true] := by
  have hpart {task : Task R} (hkind : task.kind = e.kind R request) :
      visits ⟨[task]⟩ e request = [decide (task.status = .performed)] :=
    visits_of_serves (TripEnd.serves_iff.mpr hkind)
  rw [visits_around, hpart hserves, List.append_eq_singleton_iff] at hone
  rw [visits_around, hpart (hkind.trans hserves), hdone]
  rcases hone with ⟨hbefore, hafter⟩ | ⟨-, hafter⟩
  · simp only [hbefore, List.nil_append, List.cons_append, List.cons.injEq] at hafter ⊢
    exact ⟨by simp, hafter.2⟩
  · simp at hafter

end Schedule

/-- What is told of a task that needs no plug. -/
theorem Plugging.activity_eq {pool pool' : ChargerPool R} {id : VehicleId} {kind : TaskKind R}
    {phase : TaskPhase} {activity : Activity} (h : Plugging pool id kind phase activity pool')
    (hkind : ∀ charger, kind ≠ .charge charger) : activity = Activity.ofKind kind := by
  cases h with
  | taken _ | refused _ | given _ => exact (hkind _ rfl).elim
  | none _ => rfl

/-- What is told of a task names the request that it serves. -/
theorem Plugging.request? {pool pool' : ChargerPool R} {id : VehicleId} {kind : TaskKind R}
    {phase : TaskPhase} {activity : Activity} (h : Plugging pool id kind phase activity pool') :
    activity.request? = kind.request? := by
  cases h with
  | taken _ | refused _ | given _ => rfl
  | none _ => cases kind <;> rfl

theorem TripEnd.exists_kind {kind : TaskKind R} {request : RequestId}
    (h : kind.request? = some request) : ∃ e : TripEnd, kind = e.kind R request := by
  cases kind with
  | pickup _ => exact ⟨.boarding, by simpa [TaskKind.request?, TripEnd.kind] using h⟩
  | dropoff _ => exact ⟨.alighting, by simpa [TaskKind.request?, TripEnd.kind] using h⟩
  | stay _ | drive _ | charge _ => simp [TaskKind.request?] at h

/-- The events about which the registry notes nothing. -/
def TaskEvent.IsSilent (event : TaskEvent R) : Prop :=
  event.phase = .started ∨ event.activity.request? = none

variable {now : Time} {v v' : Vehicle R} {pool pool' : ChargerPool R} {event : TaskEvent R}

theorem Beat.paired [Scalar R] (h : Beat now v pool event v' pool') (hv : v.schedule.Paired) :
    v'.schedule.Paired := by
  obtain ⟨before, after, task, task', htasks, -, hbecomes, -, hvehicle, -, -⟩ := h
  unfold Schedule.Paired at *
  rw [htasks, Ride.after?_append] at hv
  rw [hvehicle.tasks, Ride.after?_append]
  simpa only [Ride.after?, hbecomes.kind] using hv

/-- A beat ends a stop, of which it tells, or changes no stop at all. -/
theorem Beat.visits [Scalar R] (h : Beat now v pool event v' pool') :
    (event.IsSilent ∧ ∀ e request, v'.schedule.visits e request = v.schedule.visits e request) ∨
    ∃ e request before task after, event.phase = .ended ∧
      event.activity = Activity.ofKind (e.kind R request) ∧
      event.time = task.finish ∧ v.schedule.tasks = before ++ task :: after ∧
      task.kind = e.kind R request ∧ task.status = .started ∧
      (v.schedule.visits e request = [false] → v'.schedule.visits e request = [true]) ∧
      ∀ e' request', ¬(e' = e ∧ request' = request) →
        v'.schedule.visits e' request' = v.schedule.visits e' request' := by
  obtain ⟨before, after, task, task', htasks, -, hbecomes, -, hvehicle, -, hplugging, -, htime⟩ := h
  rw [Schedule.eq_of_tasks htasks, Schedule.eq_of_tasks hvehicle.tasks]
  have hkind := hbecomes.kind
  cases hphase : event.phase with
  | started =>
    rw [hphase] at hbecomes
    have hkeeps : task'.status = .performed ↔ task.status = .performed := by
      simp [hbecomes.status, hbecomes.was_planned, TaskPhase.status]
    exact .inl ⟨.inl hphase, fun e request => Schedule.visits_replaced hkind fun _ => hkeeps⟩
  | ended =>
    rw [hphase] at hbecomes hplugging htime
    have hstatus := hbecomes.status
    have hstarted := hbecomes.was_started
    cases hrequest : task.kind.request? with
    | none =>
      refine .inl ⟨.inr (hplugging.request?.trans hrequest), fun e request => ?_⟩
      refine Schedule.visits_replaced hkind fun hserves => ?_
      rw [hserves] at hrequest
      cases e <;> cases hrequest
    | some request =>
      obtain ⟨e, hserves⟩ := TripEnd.exists_kind hrequest
      have hactivity : event.activity = Activity.ofKind (e.kind R request) := by
        rw [← hserves]
        refine hplugging.activity_eq fun charger hcharge => ?_
        simp [hcharge, TaskKind.request?] at hrequest
      refine .inr ⟨e, request, before, task, after, rfl, hactivity, htime, rfl, hserves, hstarted,
        Schedule.visits_made hkind hserves hstatus, fun e' request' hother => ?_⟩
      refine Schedule.visits_replaced hkind fun hserves' => ?_
      obtain ⟨rfl, rfl⟩ := TripEnd.kind_inj.mp (hserves.symm.trans hserves')
      exact (hother ⟨rfl, rfl⟩).elim

/-- A stop that is being made belongs to a request that is planned, since a passenger who boards has
still to alight. -/
theorem Agreement.of_started {coming : List RequestId} {a b : List (Vehicle R)}
    {registry : Registry} {before after : List (Task R)} {task : Task R} {e : TripEnd}
    {request : RequestId} (h : Agreement coming (a ++ v :: b) pool registry)
    (htasks : v.schedule.tasks = before ++ task :: after) (hkind : task.kind = e.kind R request)
    (hstarted : task.status = .started) :
    ∃ entry, registry.find? request = some entry ∧ entry.status = .planned ∧
      entry.vehicle = some v.id ∧ entry.isDone e = false ∧
      stops (a ++ v :: b) e request = [(v.id, false)] := by
  have hvisit (e : TripEnd) (stop : Task R) (hmem : stop ∈ v.schedule.tasks)
      (hkind : stop.kind = e.kind R request) (hopen : stop.status ≠ .performed) :
      false ∈ v.schedule.visits e request :=
    List.mem_map.mpr ⟨stop, List.mem_filter.mpr ⟨hmem, TripEnd.serves_iff.mpr hkind⟩,
      by simpa using hopen⟩
  obtain ⟨entry, hfind, hstatus, hvehicle, hdone, hstops⟩ :=
    h.of_visit (hvisit e task (by simp [htasks]) hkind (by simp [hstarted]))
  refine ⟨entry, hfind, hstatus.resolve_right fun hperformed => ?_, hvehicle, hdone, hstops⟩
  cases e with
  | alighting => simp [RequestEntry.isDone, hperformed] at hdone
  | boarding =>
    have hpaired := h.paired v (by simp)
    have hvalid := h.roster.valid_at.toValid
    rw [Schedule.eq_of_tasks htasks] at hpaired hvalid
    obtain ⟨-, ride, dropoff, later, hrest, -, halights, -⟩ := hpaired.trip hkind
    have hwaits := hvalid.planned_after (by simp [hstarted]) dropoff (by simp [hrest])
    have hlater := hvisit .alighting dropoff (by simp [htasks, hrest]) halights (by simp [hwaits])
    obtain ⟨entry', hfind', -, -, hopen, -⟩ := h.of_visit hlater
    cases hfind.symm.trans hfind'
    simp [RequestEntry.isDone, hperformed] at hopen

/-- What the registry notes of a vehicle's beat: nothing, or that a task of the vehicle has brought
one end of a planned trip to its end. -/
inductive Registry.Notes (v : Vehicle R) (registry : Registry) : Registry → Prop where
  | nothing : Notes v registry registry
  | visit {e : TripEnd} {request : RequestId} {entry : RequestEntry} {task : Task R}
    {registry' : Registry} (stop : task ∈ v.schedule.tasks) (kind : task.kind = e.kind R request)
    (found : registry.find? request = some entry) (planned : entry.status = .planned)
    (becomes : registry.Becomes registry' (entry.visited task.finish e)) :
    Notes v registry registry'

/-- A beat, with what the registry notes of it, keeps both in agreement. The registry can note
it. -/
theorem Agreement.beat [Scalar R] {coming : List RequestId} {a b : List (Vehicle R)}
    {registry : Registry} (h : Agreement coming (a ++ v :: b) pool registry)
    (hbeat : Beat now v pool event v' pool') :
    ∃ registry', Simulation.registryChange event registry = .ok registry' ∧
      registry.Notes v registry' ∧ Agreement coming (a ++ v' :: b) pool' registry' := by
  have hroster := h.roster.beat hbeat
  have hpaired := hbeat.paired (h.paired v (by simp))
  have hvisits := hbeat.visits
  obtain ⟨hid, hfinish⟩ : v'.id = v.id ∧ v'.finish = v.finish := by
    obtain ⟨_, _, _, _, _, _, _, _, hvehicle, _, _⟩ := hbeat
    exact ⟨hvehicle.id, hvehicle.finish⟩
  rcases hvisits with ⟨hsilent, hsame⟩ |
    ⟨e, request, before, task, after, hphase, hactivity, htime, htasks, hkind, hstarted, hone,
      hothers⟩
  · refine ⟨registry, registryChange_none hsilent, .nothing,
      h.replace hroster hfinish hpaired h.sound ?_ h.unknown⟩
    intro e request
    rw [stops_congr hid (hsame e request), h.agree]
  · obtain ⟨entry, hfind, hplanned, hvehicle, hdone, hstops⟩ := h.of_started htasks hkind hstarted
    obtain ⟨registry', hchange, hbecomes⟩ :=
      registryChange_visited h.sound hfind hplanned hdone hphase hactivity
    have hentry : (entry.visited event.time e).id = request := by
      rw [← Registry.find?_id hfind]
      cases e <;> rfl
    refine ⟨registry', hchange, .visit (by simp [htasks]) hkind hfind hplanned (htime ▸ hbecomes),
      h.revisit hroster hid hfinish hpaired hbecomes ?_ ?_ ?_⟩
    · rw [hentry, hfind]
      rfl
    · intro e' request' hne
      exact hothers e' request' fun heq => hne (heq.2.trans hentry.symm)
    · intro e'
      rw [hentry, RequestEntry.visited_stops hplanned hvehicle]
      split
      next heq =>
        subst heq
        obtain ⟨hold, halone⟩ := stops_of_one h.roster.numbered hstops
        rw [stops_of_alone halone, hone hold, hid]
        rfl
      next hne =>
        rw [stops_congr hid (hothers e' request fun heq => hne heq.1), h.agree,
          Registry.stops_of_find hfind]

end DemandTransport
