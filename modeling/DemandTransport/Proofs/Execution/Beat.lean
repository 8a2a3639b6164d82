import DemandTransport.Execution.Step
import DemandTransport.Proofs.Action
import DemandTransport.Proofs.Energy.Plugs
import DemandTransport.Proofs.Schedule.Chronicle
import DemandTransport.Proofs.Schedule.Permanence

/-!
# Beats of execution

A beat starts or ends the first task of a vehicle that is not over. It moves that task one status
further, takes or gives back a plug if the task charges, hands the energy of a task that ends over
to the battery, and tells an event. Execution of a schedule whose tasks are in order is a sequence
of beats and nothing else: no beat fails as long as the chargers of all open charging tasks are
known, and when no beat is due any more, every task that is left ends later.
-/

namespace DemandTransport

variable {R : Type}

/-- The status that a task has reached when a phase is told. -/
def TaskPhase.status : TaskPhase → TaskStatus
  | started => .started
  | ended => .performed

/-- What the start or the end of a task does to the chargers, and what is told about the task. -/
inductive Plugging (pool : ChargerPool R) (id : VehicleId) :
    TaskKind R → TaskPhase → Activity → ChargerPool R → Prop where
  /-- A plug is taken. -/
  | taken {charger : ChargerId} {pool' : ChargerPool R} (h : pool.occupy charger id = .ok pool') :
    Plugging pool id (.charge charger) .started (.charge charger true) pool'
  /-- No plug is free. -/
  | refused {charger : ChargerId} {plugs : Nat}
    (h : pool.occupy charger id = .error (.chargerFull charger id plugs)) :
    Plugging pool id (.charge charger) .started (.charge charger false) pool
  /-- A plug is given back, if one was held. -/
  | given {charger : ChargerId} {held : Bool} {pool' : ChargerPool R}
    (h : pool.release charger id = .ok (held, pool')) :
    Plugging pool id (.charge charger) .ended (.charge charger held) pool'
  /-- Other tasks need no plug. -/
  | none {kind : TaskKind R} {phase : TaskPhase} (h : ∀ charger, kind ≠ .charge charger) :
    Plugging pool id kind phase (Activity.ofKind kind) pool

/-- What the start or the end of a task does to the energy of the task and of the vehicle. -/
inductive Powering [Scalar R] (v v' : Vehicle R) (task task' : Task R) :
    TaskPhase → Activity → Prop where
  /-- The battery waits for the end of the task. -/
  | kept {activity : Activity} (battery : v'.energy = v.energy)
    (account : task'.energy = task.energy)
    (plugged : ∀ charger, activity ≠ .charge charger false) :
    Powering v v' task task' .started activity
  /-- The energy is given up, since no plug is free. -/
  | forfeited {charger : ChargerId} (battery : v'.energy = v.energy)
    (account : task'.energy = some 0.0) :
    Powering v v' task task' .started (.charge charger false)
  /-- The battery takes or gives what the task accounts for. -/
  | used {activity : Activity} (battery : v'.energy = (v.applyEnergy task).2.energy)
    (account : task'.energy = task.energy) : Powering v v' task task' .ended activity

/-- The change of charge that is told of a task: none when it starts, and the one that the battery
makes when it ends. -/
def TaskPhase.energy [Scalar R] (phase : TaskPhase) (v : Vehicle R) (task : Task R) : Option R :=
  match phase with
  | started => none
  | ended => (v.applyEnergy task).1

/-- A vehicle with other tasks and possibly another charge. -/
structure Vehicle.With (v v' : Vehicle R) (tasks : List (Task R)) : Prop where
  tasks : v'.schedule.tasks = tasks
  id : v'.id = v.id
  start : v'.start = v.start
  finish : v'.finish = v.finish

/-- The start or the end of the first task of a vehicle that is not over, which is due by an
instant. -/
inductive Beat [Scalar R] (now : Time) (v : Vehicle R) (pool : ChargerPool R) (event : TaskEvent R)
    (v' : Vehicle R) (pool' : ChargerPool R) : Prop where
  | mk (before after : List (Task R)) (task task' : Task R)
    (tasks : v.schedule.tasks = before ++ task :: after)
    (done : ∀ a ∈ before, a.status = .performed)
    (becomes : task.Becomes task' event.phase.status)
    (due : event.phase.time task ≤ now)
    (vehicle : v.With v' (before ++ task' :: after))
    (names : event.vehicle = v.id)
    (plugging : Plugging pool v.id task.kind event.phase event.activity pool')
    (powering : Powering v v' task task' event.phase event.activity)
    (time : event.time = event.phase.time task)
    (index : event.index = before.length)
    (told : event.energy = event.phase.energy v task)

/-- The chargers of all open charging tasks of a schedule exist. -/
def Schedule.Supplied (s : Schedule R) (pool : ChargerPool R) : Prop :=
  ∀ task ∈ s.tasks, task.status ≠ .performed → ∀ charger, task.kind = .charge charger →
    (pool.find? charger).isSome

theorem Schedule.Supplied.keeps {s : Schedule R} {pool pool' : ChargerPool R} (h : s.Supplied pool)
    (hkeeps : pool.Keeps pool') : s.Supplied pool' := fun task htask hopen charger hkind =>
  (hkeeps.known charger).mpr (h task htask hopen charger hkind)

/-- Nothing of a schedule is due by an instant: the first task that is not over neither starts nor
ends by then. -/
def Schedule.AtRest (now : Time) (s : Schedule R) : Prop :=
  ∀ index task, s.firstOpen? = some (index, task) →
    (task.status = .planned → now < task.start) ∧ (task.status = .started → now < task.finish)

/-! ## One beat -/

variable [Scalar R]

omit [Scalar R] in
/-- What the first open task of a schedule is. -/
theorem Schedule.firstOpen?_eq_some {s : Schedule R} {index : Nat} {task : Task R}
    (h : s.firstOpen? = some (index, task)) :
    ∃ before after, s.tasks = before ++ task :: after ∧ before.length = index ∧
      (∀ a ∈ before, a.status = .performed) ∧ task.status ≠ .performed := by
  have hfrom (tasks : List (Task R)) (n : Nat) (h : firstOpenFrom? n tasks = some (index, task)) :
      ∃ before after, tasks = before ++ task :: after ∧ n + before.length = index ∧
        (∀ a ∈ before, a.status = .performed) ∧ task.status ≠ .performed := by
    induction tasks generalizing n with
    | nil => cases h
    | cons first rest ih =>
      rw [firstOpenFrom?] at h
      split at h
      next hdone =>
        obtain ⟨before, after, rfl, hlength, hbefore, hopen⟩ := ih (n + 1) h
        refine ⟨first :: before, after, rfl, by simp; omega, ?_, hopen⟩
        intro a ha
        rcases List.mem_cons.mp ha with rfl | ha
        · exact hdone
        · exact hbefore a ha
      next hopen =>
        cases h
        exact ⟨[], rest, rfl, rfl, by simp, hopen⟩
  obtain ⟨before, after, htasks, hlength, hrest⟩ := hfrom s.tasks 0 h
  exact ⟨before, after, htasks, by simpa using hlength, hrest⟩

omit [Scalar R] in
theorem Schedule.firstOpen?_eq_none {s : Schedule R} (h : s.firstOpen? = none) :
    ∀ task ∈ s.tasks, task.status = .performed := by
  have hfrom (tasks : List (Task R)) (n : Nat) (h : firstOpenFrom? n tasks = none) :
      ∀ task ∈ tasks, task.status = .performed := by
    induction tasks generalizing n with
    | nil => simp
    | cons first rest ih =>
      rw [firstOpenFrom?] at h
      split at h
      next hdone =>
        intro task htask
        rcases List.mem_cons.mp htask with rfl | htask
        · exact hdone
        · exact ih (n + 1) h task htask
      · cases h
  exact hfrom s.tasks 0 h

omit [Scalar R] in
/-- When nothing is due in a schedule whose tasks are in order, all planned tasks start later, and
all tasks that are not over end later. -/
theorem Schedule.InSequence.later_of_atRest {s : Schedule R} {now : Time} (h : s.InSequence)
    (hrest : s.AtRest now) : ∀ task ∈ s.tasks,
      (task.status = .planned → now < task.start) ∧
        (task.status ≠ .performed → now < task.finish) := by
  intro task htask
  have hlasts := h.lasts task htask
  by_cases hopen : task.status = .performed
  · simp [hopen]
  cases hfirst : s.firstOpen? with
  | none => exact (hopen (firstOpen?_eq_none hfirst task htask)).elim
  | some found =>
    obtain ⟨index, first⟩ := found
    obtain ⟨before, after, htasks, -, hdone, hfirstOpen⟩ := firstOpen?_eq_some hfirst
    obtain ⟨hwaits, hgoes⟩ := hrest index first hfirst
    have hfirstLasts := h.lasts first (by simp [htasks])
    have hlater : now < first.finish := by
      cases hstatus : first.status with
      | planned =>
        have := hwaits hstatus
        simp only [Time.lt_iff] at *
        omega
      | started => exact hgoes hstatus
      | performed => exact (hfirstOpen hstatus).elim
    rw [htasks] at htask
    rw [eq_of_tasks htasks] at h
    rcases List.mem_append.mp htask with hbefore | hbehind
    · exact (hopen (hdone task hbefore)).elim
    rcases List.mem_cons.mp hbehind with rfl | hafter
    · exact ⟨hwaits, fun _ => hlater⟩
    · have hstart : first.finish ≤ task.start :=
        (h.timed.toValid.earlier.2 task.timed (List.mem_map_of_mem hafter)).1
      simp only [Time.le_iff, Time.lt_iff] at *
      exact ⟨fun _ => by omega, fun _ => by omega⟩

omit [Scalar R] in
theorem Task.advanced_energy (task : Task R) (status : TaskStatus) (t : Time) :
    (task.advanced status t).energy = task.energy := by
  cases status <;> rfl

/-- A task of a vehicle is advanced entirely or not at all. -/
theorem Vehicle.InPlace.advanceTask_eq (index : Nat) (status : TaskStatus) (t : Time) :
    advanceTask index status t =
      Action.entirely fun v : Vehicle R => v.advanceTask index status t := by
  funext v
  have hschedule : (onSchedule (Schedule.InPlace.advance index status t)).mapError
      (FleetError.schedule (R := R) v.id) v = match v.schedule.advance index status t with
        | .ok (task, schedule) => .ok task { v with schedule := schedule }
        | .error cause => .error (.schedule v.id cause) v := by
    rw [Schedule.InPlace.advance_eq]
    simp only [Action.mapError, onSchedule, Action.within, Action.entirely]
    cases v.schedule.advance index status t <;> rfl
  simp only [advanceTask, Action.run_get_bind, Action.entirely, Vehicle.advanceTask]
  cases hadvance : v.schedule.advance index status t with
  | error cause =>
    rw [hadvance] at hschedule
    rw [Action.bind_of_error hschedule]
  | ok result =>
    rw [hadvance] at hschedule
    rw [Action.bind_of_ok hschedule]
    dsimp only
    split <;> rfl

/-- So is its energy given up. -/
theorem Vehicle.InPlace.forfeitEnergy_eq (index : Nat) :
    forfeitEnergy index = Action.change fun v : Vehicle R => v.forfeitEnergy index := by
  funext v
  simp only [forfeitEnergy, Action.run_get_bind, Schedule.InPlace.overrideEnergy_eq,
    Action.mapError, onSchedule, Action.within, Action.change, Vehicle.forfeitEnergy]
  cases v.schedule.overrideEnergy index 0.0 <;> rfl

/-- Advancing a task of a vehicle changes its schedule and at most its charge. -/
theorem Vehicle.advanceTask_ok {v v' : Vehicle R} {index : Nat} {status : TaskStatus} {t : Time}
    {told : Option R} (h : v.advanceTask index status t = .ok (told, v')) :
    ∃ task, v.schedule.advance index status t = .ok (task, v'.schedule) ∧
      v' = { v with energy := v'.energy, schedule := v'.schedule } := by
  unfold advanceTask at h
  split at h
  · cases h
  next task schedule hadvance =>
    obtain rfl := congrArg Prod.snd (Except.ok.inj h)
    refine ⟨task, ?_⟩
    rw [hadvance]
    unfold applyEnergy
    split
    · split <;> exact ⟨rfl, rfl⟩
    · exact ⟨rfl, rfl⟩

/-- Giving up the energy of a task changes the schedule only. -/
theorem Vehicle.forfeitEnergy_ok {v v' : Vehicle R} {index : Nat}
    (h : v.forfeitEnergy index = .ok v') :
    ∃ kwh schedule, v.schedule.overrideEnergy index kwh = .ok schedule ∧
      v' = { v with schedule := schedule } := by
  unfold forfeitEnergy at h
  split at h
  · cases h
  next schedule hoverride =>
    obtain rfl := Except.ok.inj h
    exact ⟨_, schedule, hoverride, rfl⟩

/-- What becomes of a battery, and what is told of it, depends on the battery and the energy of the
task. -/
theorem Vehicle.applyEnergy_congr {v w : Vehicle R} {task other : Task R}
    (hbattery : v.energy = w.energy) (henergy : task.energy = other.energy) :
    (v.applyEnergy task).1 = (w.applyEnergy other).1 ∧
      (v.applyEnergy task).2.energy = (w.applyEnergy other).2.energy := by
  unfold applyEnergy
  rw [hbattery, henergy]
  split <;> simp_all

namespace VehicleState

variable {state : VehicleState R} {before after : List (Task R)} {task : Task R}

/-- Advancing a task behind tasks that are over changes it and at most the charge. -/
theorem advanceTask_ends {status : TaskStatus} {t : Time}
    (htasks : state.vehicle.schedule.tasks = before ++ task :: after)
    (hdone : ∀ a ∈ before, a.status = .performed) (hnext : task.status.next? = some status) :
    (advanceTask before.length status t).Ends state
      (fun told state' => state'.chargers = state.chargers ∧
        state.vehicle.With state'.vehicle (before ++ task.advanced status t :: after) ∧
        if status = .performed then told = (state.vehicle.applyEnergy task).1 ∧
          state'.vehicle.energy = (state.vehicle.applyEnergy task).2.energy
        else state'.vehicle.energy = state.vehicle.energy)
      fun _ _ => False := by
  have hadvance := @Schedule.advance_append R before after task status hnext (fun _ => hdone) t
  rw [← Schedule.eq_of_tasks htasks] at hadvance
  simp only [advanceTask, Vehicle.InPlace.advanceTask_eq, Action.ends_mapError,
    Action.ends_within, Action.ends_entirely, Vehicle.advanceTask, hadvance]
  refine ⟨trivial, ?_⟩
  split
  · refine ⟨?_, Vehicle.applyEnergy_congr rfl (Task.advanced_energy task status t)⟩
    unfold Vehicle.applyEnergy
    split <;> exact ⟨rfl, rfl, rfl, rfl⟩
  · exact ⟨⟨rfl, rfl, rfl, rfl⟩, rfl⟩

/-- A task that begins to charge takes a plug, or gives its energy up when there is none. Only an
unknown charger is a failure. -/
theorem plugIn_ends {charger : ChargerId}
    (htasks : state.vehicle.schedule.tasks = before ++ task :: after)
    (hopen : task.status ≠ .performed) :
    (plugIn before.length charger).Ends state
      (fun plugged state' => ∃ task', (task' = task ∨ ∃ kwh, task' = task.withEnergy kwh) ∧
        state.vehicle.With state'.vehicle (before ++ task' :: after) ∧
        Plugging state.chargers state.vehicle.id (.charge charger) .started
          (.charge charger plugged) state'.chargers ∧
        Powering state.vehicle state'.vehicle task task' .started (.charge charger plugged))
      fun _ _ => ¬(state.chargers.find? charger).isSome := by
  simp only [plugIn, Action.ends_bind, Action.ends_get]
  by_cases hknown : (state.chargers.find? charger).isSome
  swap
  · have hoccupy : state.chargers.occupy charger state.vehicle.id =
        .error (.chargerNotFound charger) := by
      simp [ChargerPool.occupy, ChargerPool.get, Option.not_isSome_iff_eq_none.mp hknown, bind,
        Except.bind]
    simpa only [hoccupy, Action.ends_throw] using hknown
  rcases ChargerPool.occupy_cases hknown state.vehicle.id with
    ⟨pool', hoccupy⟩ | ⟨plugs, hoccupy⟩
  · simp only [hoccupy, Action.ends_bind, Action.ends_set, Action.ends_pure]
    exact ⟨task, .inl rfl, ⟨htasks, rfl, rfl, rfl⟩, .taken hoccupy, .kept rfl rfl (by simp)⟩
  · have henergy := @Schedule.overrideEnergy_append R before after task hopen 0.0
    rw [← Schedule.eq_of_tasks htasks] at henergy
    simp only [hoccupy, forfeit, Vehicle.InPlace.forfeitEnergy_eq, Action.ends_bind,
      Action.ends_mapError, Action.ends_within, Action.ends_change, Vehicle.forfeitEnergy, henergy,
      Action.ends_pure]
    exact ⟨_, .inr ⟨_, rfl⟩, ⟨rfl, rfl, rfl, rfl⟩, .refused hoccupy, .forfeited rfl rfl⟩

/-- A task that does not charge is advanced without any change of the chargers. -/
theorem beat_of_advance {now : Time} {phase : TaskPhase} {state' : VehicleState R}
    {event : TaskEvent R} {task' : Task R}
    (htasks : state.vehicle.schedule.tasks = before ++ task :: after)
    (hdone : ∀ a ∈ before, a.status = .performed) (hbecomes : task.Becomes task' phase.status)
    (hdue : phase.time task ≤ now) (hkind : ∀ charger, task.kind ≠ .charge charger)
    (hpool : state'.chargers = state.chargers)
    (hvehicle : state.vehicle.With state'.vehicle (before ++ task' :: after))
    (hpowering : Powering state.vehicle state'.vehicle task task' phase (Activity.ofKind task.kind))
    (hnames : event.vehicle = state.vehicle.id) (hphase : event.phase = phase)
    (hactivity : event.activity = Activity.ofKind task.kind)
    (htime : event.time = phase.time task) (hindex : event.index = before.length)
    (htold : event.energy = phase.energy state.vehicle task) :
    Beat now state.vehicle state.chargers event state'.vehicle state'.chargers := by
  subst hphase
  refine ⟨before, after, task, task', htasks, hdone, hbecomes, hdue, hvehicle, hnames, ?_,
    hactivity ▸ hpowering, htime, hindex, htold⟩
  rw [hactivity, hpool]
  exact .none hkind

/-- A planned task behind tasks that are over is started. -/
theorem startTask_ends {now : Time}
    (htasks : state.vehicle.schedule.tasks = before ++ task :: after)
    (hdone : ∀ a ∈ before, a.status = .performed) (hplanned : task.status = .planned)
    (hdue : task.start ≤ now) :
    (startTask before.length task).Ends state
      (fun event state' =>
        Beat now state.vehicle state.chargers event state'.vehicle state'.chargers)
      fun _ _ => ¬state.vehicle.schedule.Supplied state.chargers := by
  have hnext : task.status.next? = some .started := by simp [hplanned, TaskStatus.next?]
  have hbecomes := Task.becomes_advanced hnext task.start
  have hadvance := advanceTask_ends htasks hdone hnext (t := task.start)
  have hplain := @beat_of_advance R _ state before after task now .started
  simp only [startTask, Action.ends_bind, Action.ends_get]
  refine hadvance.mono ?_ fun _ _ h => h.elim
  rintro energy mid ⟨hpool, hmid, hkept⟩
  have henergy : mid.vehicle.energy = state.vehicle.energy := hkept
  cases hkind : task.kind with
  | charge charger =>
    have hopen : (task.advanced .started task.start).status ≠ .performed := by
      simp [hbecomes.status]
    simp only [Action.ends_bind]
    refine (plugIn_ends hmid.tasks hopen).mono ?_ fun _ _ hunknown hsupplied => hunknown ?_
    swap
    · rw [hpool]
      exact hsupplied task (by simp [htasks]) (by simp [hplanned]) charger hkind
    rintro plugged last ⟨task', htask', hlast, hplugging, hpowering⟩
    simp only [moveTo, Action.ends_pure, Action.ends_modify]
    refine ⟨before, after, task, task', htasks, hdone, ?_, hdue,
      ⟨hlast.tasks, hlast.id.trans hmid.id, hlast.start.trans hmid.start,
        hlast.finish.trans hmid.finish⟩, rfl, ?_, ?_, rfl, rfl, rfl⟩
    · rcases htask' with rfl | ⟨kwh, rfl⟩
      · exact hbecomes
      · exact ⟨hnext, rfl, rfl, rfl, rfl, rfl, rfl⟩
    · rw [hpool, hmid.id] at hplugging
      rw [hkind]
      exact hplugging
    · cases hpowering with
      | kept hbattery htask hplugged => exact .kept (hbattery.trans henergy) htask hplugged
      | forfeited hbattery haccount => exact .forfeited (hbattery.trans henergy) haccount
  | stay _ | drive _ | pickup _ | dropoff _ =>
    simp only [moveTo, Action.ends_pure, Action.ends_bind, Action.ends_modify]
    exact hplain htasks hdone hbecomes hdue (by simp [hkind]) hpool hmid
      (.kept henergy rfl (by simp [hkind, Activity.ofKind])) rfl rfl (by rw [hkind]) rfl rfl rfl

/-- A started task is ended. -/
theorem endTask_ends {now : Time}
    (htasks : state.vehicle.schedule.tasks = before ++ task :: after)
    (hdone : ∀ a ∈ before, a.status = .performed) (hstarted : task.status = .started)
    (hdue : task.finish ≤ now) :
    (endTask before.length task).Ends state
      (fun event state' =>
        Beat now state.vehicle state.chargers event state'.vehicle state'.chargers)
      fun _ _ => ¬state.vehicle.schedule.Supplied state.chargers := by
  have hnext : task.status.next? = some .performed := by simp [hstarted, TaskStatus.next?]
  have hbecomes := Task.becomes_advanced hnext task.finish
  have hadvance := advanceTask_ends htasks hdone hnext (t := task.finish)
  have hplain := @beat_of_advance R _ state before after task now .ended
  simp only [endTask, Action.ends_bind, Action.ends_get]
  refine hadvance.mono ?_ fun _ _ h => h.elim
  rintro energy mid ⟨hpool, hmid, hused⟩
  obtain ⟨htold, henergy⟩ : energy = (state.vehicle.applyEnergy task).1 ∧
    mid.vehicle.energy = (state.vehicle.applyEnergy task).2.energy := hused
  cases hkind : task.kind with
  | charge charger =>
    simp only [unplug, Action.ends_bind, Action.ends_get]
    by_cases hknown : (state.chargers.find? charger).isSome
    swap
    · have hrelease : mid.chargers.release charger mid.vehicle.id =
          .error (.chargerNotFound charger) := by
        simp [hpool, ChargerPool.release, ChargerPool.get,
          Option.not_isSome_iff_eq_none.mp hknown, bind, Except.bind]
      simp only [hrelease, Action.ends_throw]
      exact fun hsupplied =>
        hknown (hsupplied task (by simp [htasks]) (by simp [hstarted]) charger hkind)
    obtain ⟨held, pool', hrelease⟩ := ChargerPool.exists_release hknown state.vehicle.id
    have hunplug : mid.chargers.release charger mid.vehicle.id = .ok (held, pool') := by
      rw [hpool, hmid.id]
      exact hrelease
    simp only [hunplug, moveTo, TaskKind.isDrive, Action.ends_pure, Action.ends_bind,
      Action.ends_set, Bool.false_eq_true, if_false]
    refine ⟨before, after, task, _, htasks, hdone, hbecomes, hdue, hmid, rfl, ?_,
      .used henergy rfl, rfl, rfl, htold⟩
    rw [hkind]
    exact .given hrelease
  | drive _ =>
    simp only [moveTo, TaskKind.isDrive, Action.ends_pure, Action.ends_bind, Action.ends_modify,
      if_true]
    exact hplain htasks hdone hbecomes hdue (by simp [hkind]) hpool hmid (.used henergy rfl) rfl rfl
      (by rw [hkind]) rfl rfl htold
  | stay _ | pickup _ | dropoff _ =>
    simp only [moveTo, TaskKind.isDrive, Action.ends_pure, Action.ends_bind, Bool.false_eq_true,
      if_false]
    exact hplain htasks hdone hbecomes hdue (by simp [hkind]) hpool hmid (.used henergy rfl) rfl rfl
      (by rw [hkind]) rfl rfl htold

/-- Execution makes a beat, leaves everything as it is, since nothing is due, or fails at a charger
that is not known. -/
theorem advanceOnce_beats_or_fails {now : Time} :
    (advanceOnce now).Ends state
      (fun told state' =>
        match told with
        | some event =>
          Beat now state.vehicle state.chargers event state'.vehicle state'.chargers
        | none => state' = state ∧ state.vehicle.schedule.AtRest now)
      fun _ _ => ¬state.vehicle.schedule.Supplied state.chargers := by
  simp only [advanceOnce, Action.ends_bind, Action.ends_get]
  cases hfirst : state.vehicle.schedule.firstOpen? with
  | none => exact ⟨rfl, fun index task hsome => by simp [hfirst] at hsome⟩
  | some found =>
    obtain ⟨index, task⟩ := found
    obtain ⟨before, after, htasks, rfl, hdone, -⟩ := Schedule.firstOpen?_eq_some hfirst
    dsimp only
    split
    next hstart =>
      simp only [Action.ends_map]
      exact startTask_ends htasks hdone hstart.1 hstart.2
    next hwaits =>
      split
      next hend =>
        simp only [Action.ends_map]
        exact endTask_ends htasks hdone hend.1 hend.2
      next hgoes =>
        refine ⟨rfl, fun index other hother => ?_⟩
        cases hfirst.symm.trans hother
        exact ⟨fun hstatus => Nat.lt_of_not_le fun hle => hwaits ⟨hstatus, hle⟩,
          fun hstatus => Nat.lt_of_not_le fun hle => hgoes ⟨hstatus, hle⟩⟩

/-- Execution either makes a beat or leaves everything as it is, if all chargers are known. -/
theorem advanceOnce_beats {now : Time}
    (hsupplied : state.vehicle.schedule.Supplied state.chargers) :
    (advanceOnce now).Ends state
      (fun told state' =>
        match told with
        | some event =>
          Beat now state.vehicle state.chargers event state'.vehicle state'.chargers
        | none => state' = state ∧ state.vehicle.schedule.AtRest now)
      fun _ _ => False :=
  advanceOnce_beats_or_fails.mono (fun _ _ h => h) fun _ _ hfail => hfail hsupplied

/-- When no beat is made, every task that is left ends later. -/
theorem advanceOnce_ends {now : Time} (hsequence : state.vehicle.schedule.InSequence)
    (hsupplied : state.vehicle.schedule.Supplied state.chargers) :
    (advanceOnce now).Ends state
      (fun told state' =>
        match told with
        | some event =>
          Beat now state.vehicle state.chargers event state'.vehicle state'.chargers
        | none => state' = state ∧
          ∀ task ∈ state.vehicle.schedule.tasks, task.status ≠ .performed → now < task.finish)
      fun _ _ => False := by
  refine (advanceOnce_beats hsupplied).mono ?_ fun _ _ h => h
  rintro (_ | event) state' hstate'
  · exact ⟨hstate'.1, fun task htask => (hsequence.later_of_atRest hstate'.2 task htask).2⟩
  · exact hstate'

end VehicleState

end DemandTransport
