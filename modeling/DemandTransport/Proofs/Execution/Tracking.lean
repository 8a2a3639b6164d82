import DemandTransport.Proofs.Execution.Replanning
import DemandTransport.Proofs.Execution.Settling
import DemandTransport.Proofs.Execution.Whereabouts

/-!
# Tracking

Statuses and movements are kept up beat by beat, while planning between the steps cuts idle time
that has been begun and puts in work that is already due. Vehicles are tracked all the same: a beat
takes the movement along with the task that it starts or ends, and planning changes nothing of what
has been begun but where idle time ends, on which no movement depends. So after every step all is
as the clock says.
-/

namespace DemandTransport

variable {R : Type}

/-! ## Planning -/

namespace Task

/-- What planning leaves alone of a task that has been begun, which is everything but the end and
the energy of idle time that goes on. -/
def core (task : Task R) : Task R :=
  if task.isStay ∧ task.status = .started then { task with finish := task.start, energy := none }
  else task

variable {task : Task R}

@[simp] theorem core_status (task : Task R) : task.core.status = task.status := by
  unfold core
  split <;> rfl

@[simp] theorem core_start (task : Task R) : task.core.start = task.start := by
  unfold core
  split <;> rfl

theorem core_of_performed (h : task.status = .performed) : task.core = task := by
  simp [core, h]

/-- The movement does not depend on the rest. -/
@[simp] theorem core_movement (task : Task R) : task.core.movement = task.movement := by
  unfold core
  split
  next h => simp [movement, not_isDrive h.1]
  next => rfl

end Task

theorem Schedule.movement_of_core {s s' : Schedule R}
    (h : s'.begun.map Task.core = s.begun.map Task.core) (first : Movement) :
    s'.movement first = s.movement first := by
  have hcore (tasks : List (Task R)) :
      tasks.getLast?.map Task.movement = (tasks.map Task.core).getLast?.map Task.movement := by
    simp [List.getLast?_map, Function.comp_def]
  rw [movement, movement, hcore, h, ← hcore]

namespace Edit.Replans

variable [Scalar R] {edit : Edit R} {s s' : Schedule R}

/-- Planning leaves what has been begun alone. -/
theorem begun_core (h : edit.Replans s s') :
    s'.begun.map Task.core = s.begun.map Task.core := by
  cases h with
  | nothing same => rw [same]
  | work before old new after htasks htasks' hwaiting hfresh _ =>
    have hold : old.filter (fun task => task.status ≠ .planned) = [] := by simpa using hwaiting
    have hnew : new.filter (fun task => task.status ≠ .planned) = [] := by simpa using hfresh
    rw [Schedule.begun, Schedule.begun, htasks, htasks']
    simp only [List.filter_append, hold, hnew]
  | cut before after stay t hsplits htasks htasks' =>
    have hidle : stay.kind.isStay = true := hsplits.idle
    rw [Schedule.begun, Schedule.begun, htasks, htasks']
    cases hstatus : stay.status with
    | planned => simp [Task.headUntil, Task.tailFrom, hstatus]
    | started => simp [Task.headUntil, Task.tailFrom, hstatus, Task.core, Task.isStay, hidle]
    | performed => exact (hsplits.unfinished hstatus).elim

/-- Tasks that planning adds are idle time, but for one that is put in. -/
theorem mem_tasks (h : edit.Replans s s') :
    ∀ task ∈ s'.tasks, task ∈ s.tasks ∨ edit.inserted? = some task ∨ task.isStay = true := by
  intro task htask
  cases h with
  | nothing same => exact .inl (same ▸ htask)
  | work before old new after htasks htasks' _ _ hidle =>
    simp only [htasks, htasks', List.mem_append] at htask ⊢
    rcases htask with (hbefore | hin) | hafter
    · exact .inl (.inl (.inl hbefore))
    · exact .inr (hidle task hin)
    · exact .inl (.inr hafter)
  | cut before after stay t hsplits htasks htasks' =>
    simp only [htasks, htasks', List.mem_append] at htask ⊢
    rcases htask with (hbefore | hin) | hafter
    · exact .inl (.inl (.inl hbefore))
    · have hsame : task.kind = stay.kind := by
        rcases List.mem_pair.mp hin with rfl | rfl <;> rfl
      exact .inr (.inr (by rw [Task.isStay, hsame]; exact hsplits.idle))
    · exact .inl (.inr hafter)

end Edit.Replans

/-! ## Execution -/

/-- Where the start or the end of a task leaves its vehicle. -/
def TaskPhase.movement (phase : TaskPhase) (task : Task R) (movement : Movement) : Movement :=
  match phase with
  | started =>
    match task.kind with
    | .drive route => .driving route
    | _ => .stationary task.source task.start
  | ended => if task.kind.isDrive then .stationary task.target task.finish else movement

section Becomes

variable {task task' : Task R} {phase : TaskPhase} {movement : Movement} {now : Time}

/-- The movement that a phase brings about is that of the task then, as long as the task itself has
brought about the movement before if it ends. -/
theorem Task.Becomes.movement_eq (h : task.Becomes task' phase.status) (hroute : task.OnRoute)
    (hstood : phase = .ended → movement = task.movement) :
    phase.movement task movement = task'.movement := by
  by_cases hdrive : task.kind.isDrive = true
  · have hdrive' : task'.kind.isDrive = true := by rwa [h.kind]
    cases phase with
    | started =>
      obtain ⟨route, hkind⟩ : ∃ route, task.kind = .drive route := by
        cases hkind : task.kind <;> simp_all [TaskKind.isDrive]
      have hopen : task'.status ≠ .performed := by simp [h.status, TaskPhase.status]
      rw [movement_of_drive hdrive' hopen, TaskPhase.movement, hkind]
      exact (hroute.becomes h).driving_eq (h.kind.trans hkind)
    | ended =>
      rw [movement_of_ended hdrive' h.status, TaskPhase.movement, if_pos hdrive, h.target, h.finish]
  · have hdrive' : ¬task'.kind.isDrive = true := by rwa [h.kind]
    rw [movement_of_not_drive hdrive', h.source, h.start]
    cases phase with
    | started => cases hkind : task.kind <;> simp_all [TaskKind.isDrive, TaskPhase.movement]
    | ended => rw [TaskPhase.movement, if_neg hdrive, hstood rfl, movement_of_not_drive hdrive]

/-- A task whose start or end is due has been begun by then, and has ended if it is over. -/
theorem Task.Becomes.begun_by (h : task.Becomes task' phase.status)
    (hlasts : task.start < task.finish) (hdue : phase.time task ≤ now) :
    task'.start ≤ now ∧ (task'.status = .performed → task'.finish ≤ now) := by
  rw [h.start, h.finish, h.status]
  cases phase with
  | started => exact ⟨hdue, fun hdone => TaskStatus.noConfusion hdone⟩
  | ended => exact ⟨Nat.le_trans (Nat.le_of_lt hlasts) hdue, fun _ => hdue⟩

end Becomes

variable [Scalar R]

namespace VehicleState

/-- The vehicle has not moved, and it is still the one that started where it did. -/
structure InPlace (state left : VehicleState R) : Prop where
  movement : left.movement = state.movement
  startNode : left.vehicle.startNode = state.vehicle.startNode

/-- The vehicle has gone to where a phase of a task leaves it. -/
structure Moved (state : VehicleState R) (phase : TaskPhase) (index : Nat) (task : Task R)
    (event : TaskEvent R) (left : VehicleState R) : Prop where
  told : event.phase = phase
  names : event.index = index
  movement : left.movement = phase.movement task state.movement
  startNode : left.vehicle.startNode = state.vehicle.startNode

variable {state : VehicleState R} {index : Nat} {task : Task R} {now : Time}

theorem advanceTask_inPlace (status : TaskStatus) (t : Time) :
    (advanceTask index status t).Ends state (fun _ left => state.InPlace left)
      fun _ _ => True := by
  simp only [advanceTask, Vehicle.InPlace.advanceTask_eq, Action.ends_mapError,
    Action.ends_within, Action.ends_entirely]
  split
  next h =>
    obtain ⟨-, -, hsame⟩ := Vehicle.advanceTask_ok h
    exact ⟨rfl, by rw [hsame]⟩
  next => trivial

theorem plugIn_inPlace (charger : ChargerId) :
    (plugIn index charger).Ends state (fun _ left => state.InPlace left) fun _ _ => True := by
  simp only [plugIn, Action.ends_bind, Action.ends_get]
  split
  · exact ⟨rfl, rfl⟩
  · simp only [forfeit, Vehicle.InPlace.forfeitEnergy_eq, Action.ends_bind, Action.ends_mapError,
      Action.ends_within, Action.ends_change, Action.ends_pure]
    split
    next h =>
      obtain ⟨_, _, -, rfl⟩ := Vehicle.forfeitEnergy_ok h
      exact ⟨rfl, rfl⟩
    next => trivial
  · trivial

omit [Scalar R] in
theorem unplug_inPlace (charger : ChargerId) :
    (unplug charger).Ends state (fun _ left => state.InPlace left) fun _ _ => True := by
  simp only [unplug, Action.ends_bind, Action.ends_get]
  split
  · exact ⟨rfl, rfl⟩
  · trivial

theorem startTask_moved :
    (startTask index task).Ends state (fun event left => state.Moved .started index task event left)
      fun _ _ => True := by
  simp only [startTask, Action.ends_bind, Action.ends_get]
  refine (advanceTask_inPlace .started task.start).mono ?_ fun _ _ h => h
  intro energy mid hmid
  cases hkind : task.kind with
  | charge charger =>
    simp only [Action.ends_bind]
    refine (plugIn_inPlace charger).mono ?_ fun _ _ h => h
    intro plugged last hlast
    simp only [moveTo, Action.ends_pure, Action.ends_modify]
    exact ⟨rfl, rfl, by simp [TaskPhase.movement, hkind], hlast.startNode.trans hmid.startNode⟩
  | stay _ | drive _ | pickup _ | dropoff _ =>
    simp only [moveTo, Action.ends_pure, Action.ends_bind, Action.ends_modify]
    exact ⟨rfl, rfl, by simp [TaskPhase.movement, hkind], hmid.startNode⟩

theorem endTask_moved :
    (endTask index task).Ends state (fun event left => state.Moved .ended index task event left)
      fun _ _ => True := by
  simp only [endTask, Action.ends_bind, Action.ends_get]
  refine (advanceTask_inPlace .performed task.finish).mono ?_ fun _ _ h => h
  intro energy mid hmid
  cases hkind : task.kind with
  | charge charger =>
    simp only [Action.ends_bind, TaskKind.isDrive, Bool.false_eq_true, if_false, Action.ends_pure]
    refine (unplug_inPlace charger).mono ?_ fun _ _ h => h
    intro held last hlast
    refine ⟨rfl, rfl, ?_, hlast.startNode.trans hmid.startNode⟩
    simp [TaskPhase.movement, hkind, TaskKind.isDrive, hlast.movement, hmid.movement]
  | drive _ =>
    simp only [moveTo, TaskKind.isDrive, Action.ends_pure, Action.ends_bind, Action.ends_modify,
      if_true]
    exact ⟨rfl, rfl, by simp [TaskPhase.movement, hkind, TaskKind.isDrive], hmid.startNode⟩
  | stay _ | pickup _ | dropoff _ =>
    simp only [TaskKind.isDrive, Action.ends_pure, Action.ends_bind, Bool.false_eq_true, if_false]
    refine ⟨rfl, rfl, ?_, hmid.startNode⟩
    simp [TaskPhase.movement, hkind, TaskKind.isDrive, hmid.movement]

/-- A beat moves its vehicle as the task that starts or ends tells. -/
theorem advanceOnce_moved :
    (advanceOnce now).Ends state (fun told left => ∀ event ∈ told, ∃ task,
        state.vehicle.schedule.firstOpen? = some (event.index, task) ∧
          state.Moved event.phase event.index task event left) fun _ _ => True := by
  simp only [advanceOnce, Action.ends_bind, Action.ends_get]
  cases state.vehicle.schedule.firstOpen? with
  | none => exact fun _ h => by cases h
  | some found =>
    obtain ⟨index, task⟩ := found
    dsimp only
    split
    · simp only [Action.ends_map, Option.mem_some_iff, forall_eq']
      refine startTask_moved.mono (fun event left hmoved => ?_) fun _ _ h => h
      exact ⟨task, by rw [hmoved.names], rfl, rfl, hmoved.told ▸ hmoved.movement, hmoved.startNode⟩
    · split
      · simp only [Action.ends_map, Option.mem_some_iff, forall_eq']
        refine endTask_moved.mono (fun event left hmoved => ?_) fun _ _ h => h
        exact ⟨task, by rw [hmoved.names], rfl, rfl, hmoved.told ▸ hmoved.movement,
          hmoved.startNode⟩
      · exact fun _ h => by cases h

end VehicleState

/-! ## One vehicle -/

namespace Vehicle.Tracked

variable {last now : Time} {v : Vehicle R} {movement : Movement} {pool : ChargerPool R}

/-- A beat takes the movement along. -/
theorem beat {state left : VehicleState R} {event : TaskEvent R}
    (h : state.vehicle.Tracked now state.movement)
    (hsupplied : state.vehicle.schedule.Supplied state.chargers)
    (honce : VehicleState.advanceOnce now state = .ok (some event) left) :
    left.vehicle.Tracked now left.movement := by
  obtain ⟨found, hfirst, hmoved⟩ := VehicleState.advanceOnce_moved.of_ok honce event rfl
  obtain ⟨before, after, task, task', htasks, hdone, hbecomes, hdue, hvehicle, -, -, -, -,
    hindex, -⟩ := (VehicleState.advanceOnce_beats hsupplied).of_ok honce
  obtain rfl : found = task := by
    obtain ⟨before', after', htasks', hlength, -⟩ := Schedule.firstOpen?_eq_some hfirst
    rw [htasks] at htasks'
    exact (List.cons.inj (List.append_inj htasks' (by omega)).2).1.symm
  have hvalid := h.valid
  rw [Schedule.eq_of_tasks htasks] at hvalid
  have hplanned := hvalid.planned_after hbecomes.not_over
  have hstatus : task'.status ≠ .planned := by
    rw [hbecomes.status]
    cases event.phase <;> simp [TaskPhase.status]
  have hbegun : left.vehicle.schedule.begun = before ++ [task'] :=
    Schedule.begun_concat hvehicle.tasks hdone hstatus hplanned
  refine ⟨?_, ?_, ?_, ?_⟩
  · rw [Schedule.eq_of_tasks hvehicle.tasks]
    exact (Schedule.ValidOver.becomes ⟨hvalid, rfl, rfl⟩ hdone hbecomes).toValid
  · rw [hvehicle.tasks]
    refine forall_mem_replace (htasks ▸ h.onRoute) ?_
    exact (h.onRoute found (by simp [htasks])).becomes hbecomes
  · rw [hbegun]
    intro a ha
    rcases List.mem_append.mp ha with ha | ha
    · exact h.begun a (Schedule.mem_begun.mpr ⟨by simp [htasks, ha], by simp [hdone a ha]⟩)
    · obtain rfl := List.mem_singleton.mp ha
      exact hbecomes.begun_by (hvalid.sound found (by simp)).lasts hdue
  · rw [Schedule.movement_of_begun hbegun, hmoved.movement]
    refine hbecomes.movement_eq (h.onRoute found (by simp [htasks])) fun hended => ?_
    have hstarted : found.status = .started := by
      rw [hended] at hbecomes
      exact hbecomes.was_started
    have hold : state.vehicle.schedule.begun = before ++ [found] :=
      Schedule.begun_concat htasks hdone (by simp [hstarted]) hplanned
    rw [h.movement, Schedule.movement_of_begun hold]

/-- A vehicle is brought up to an instant, and its movement with it. -/
theorem advance (h : v.Tracked last movement) (hsupplied : v.schedule.Supplied pool)
    (hle : last ≤ now) :
    ∃ events left, VehicleState.advance now ⟨v, movement, pool⟩ = .ok events left ∧
      left.vehicle.Tracked now left.movement ∧ left.vehicle.schedule.AtRest now ∧
      left.vehicle.schedule.Supplied left.chargers ∧ pool.Keeps left.chargers ∧
      left.vehicle.startNode = v.startNode := by
  obtain ⟨events, left, hsettles, -⟩ :=
    @VehicleState.exists_settles R _ ⟨v, movement, pool⟩ now hsupplied
  obtain ⟨htracked, hleft, hkeeps, hnode⟩ : left.vehicle.Tracked now left.movement ∧
      left.vehicle.schedule.Supplied left.chargers ∧ pool.Keeps left.chargers ∧
      left.vehicle.startNode = v.startNode := by
    refine hsettles.keeps (P := fun s => s.vehicle.Tracked now s.movement ∧
      s.vehicle.schedule.Supplied s.chargers ∧ pool.Keeps s.chargers ∧
      s.vehicle.startNode = v.startNode) ?_ ⟨h.mono hle, hsupplied, .refl pool, rfl⟩
    rintro s s' event ⟨htracked, hs, hkeeps, hnode⟩ honce
    have hbeat := (VehicleState.advanceOnce_beats hs).of_ok honce
    obtain ⟨task, -, hmoved⟩ := VehicleState.advanceOnce_moved.of_ok honce event rfl
    exact ⟨htracked.beat hs honce, hbeat.supplied_after hs, hkeeps.trans hbeat.keeps,
      hmoved.startNode.trans hnode⟩
  have hrest := (VehicleState.advanceOnce_beats hleft).of_ok hsettles.atRest
  exact ⟨events, left, hsettles.advance_eq hsupplied, htracked, hrest.2, hleft, hkeeps, hnode⟩

/-- Planning leaves the movement alone. -/
theorem replan {edit : Edit R} (h : v.Tracked last movement) (hplans : edit.Plans pool)
    (hstays : edit.Stays) (hroute : ∀ task ∈ edit.inserted?, task.OnRoute) :
    (v.replan edit).Tracked last movement := by
  have hedit : ∀ other ∈ [edit], other.Stays := by simpa using hstays
  have hvalid : (v.replan edit).schedule.Valid :=
    (Schedule.ValidOver.performAll ⟨h.valid, rfl, rfl⟩ hedit).toValid
  have hreplans := v.replans h.valid.inSequence hplans
  refine ⟨hvalid, fun task htask => ?_, fun task htask => ?_, ?_⟩
  · rcases hreplans.mem_tasks task htask with hold | hinserted | hidle
    · exact h.onRoute task hold
    · exact hroute task hinserted
    · exact .of_isStay hidle
  · have hcore : task.core ∈ v.schedule.begun.map Task.core :=
      hreplans.begun_core ▸ List.mem_map_of_mem htask
    obtain ⟨old, hold, hsame⟩ := List.mem_map.mp hcore
    have hstart : old.start = task.start := by rw [← old.core_start, hsame, task.core_start]
    have hstatus : old.status = task.status := by rw [← old.core_status, hsame, task.core_status]
    obtain ⟨hbegun, hended⟩ := h.begun old hold
    refine ⟨hstart ▸ hbegun, fun hdone => ?_⟩
    have hover : old.status = .performed := hstatus.trans hdone
    rw [Task.core_of_performed hover, Task.core_of_performed hdone] at hsame
    exact hsame ▸ hended hover
  · rw [h.movement, ← Schedule.movement_of_core hreplans.begun_core]
    rfl

end Vehicle.Tracked

/-! ## The fleet -/

namespace FleetState

/-- All vehicles are where their schedules tell, and they are still those that start at the given
nodes. -/
structure Tracked (state : FleetState R) (last : Time) (nodes : List NodeId) : Prop where
  each : List.Forall₂ (Vehicle.Tracked last) state.fleet.vehicles state.movements
  supplied : ∀ v ∈ state.fleet.vehicles, v.schedule.Supplied state.chargers
  nodes : state.fleet.vehicles.map Vehicle.startNode = nodes

variable {last now : Time} {nodes : List NodeId} {state : FleetState R}

/-- Vehicles are brought up to an instant one after the other, each with its movement. -/
theorem advanceEach_tracked {vehicles : List (Vehicle R)} {movements : List Movement}
    {pool : ChargerPool R} (h : List.Forall₂ (Vehicle.Tracked last) vehicles movements)
    (hsupplied : ∀ v ∈ vehicles, v.schedule.Supplied pool) (hle : last ≤ now) :
    ∃ (told : List (List (TaskEvent R))) (others : List (Vehicle R × Movement))
      (pool' : ChargerPool R),
      advanceEach now (vehicles.zip movements) pool = (told.map Except.ok, others, pool') ∧
      List.Forall₂ (fun v movement => v.Tracked now movement ∧ v.schedule.AtRest now)
        (others.map Prod.fst) (others.map Prod.snd) ∧
      (∀ v ∈ others.map Prod.fst, v.schedule.Supplied pool') ∧ pool.Keeps pool' ∧
      (others.map Prod.fst).map Vehicle.startNode = vehicles.map Vehicle.startNode := by
  induction h generalizing pool with
  | nil => exact ⟨[], [], pool, rfl, .nil, by simp, .refl pool, rfl⟩
  | @cons v movement vehicles movements hfirst _ ih =>
    obtain ⟨events, left, hrun, htracked, hrest, hleft, hkeeps, hnode⟩ :=
      hfirst.advance (hsupplied v List.mem_cons_self) hle
    obtain ⟨told, others, pool', heq, hothers, hsupplied', hkeeps', hnodes⟩ :=
      ih fun w hw => (hsupplied w (List.mem_cons_of_mem v hw)).keeps hkeeps
    refine ⟨events :: told, (left.vehicle, left.movement) :: others, pool', ?_,
      .cons ⟨htracked, hrest⟩ hothers, ?_, hkeeps.trans hkeeps', by simpa [hnode] using hnodes⟩
    · simp [advanceEach, Action.outcome, hrun, heq]
    · simpa using ⟨hleft.keeps hkeeps', by simpa using hsupplied'⟩

/-- A step brings all vehicles up to its instant, and then all is as the clock says. -/
theorem Tracked.advance (h : state.Tracked last nodes) (hle : last ≤ now) :
    ∃ events left, FleetState.advance now state = .ok events left ∧ left.Tracked now nodes ∧
      List.Forall₂ (Vehicle.OnTime now) left.fleet.vehicles left.movements ∧
      state.chargers.Keeps left.chargers := by
  obtain ⟨told, others, pool', heach, hothers, hsupplied, hkeeps, hnodes⟩ :=
    advanceEach_tracked h.each h.supplied hle
  exact ⟨_, _, advance_eq h.each.length_eq.symm heach,
    ⟨hothers.imp fun _ _ h => h.1, hsupplied, hnodes.trans h.nodes⟩,
    hothers.imp fun _ _ h => h.1.onTime h.2, hkeeps⟩

/-- The schedule of one vehicle is planned anew. -/
theorem Tracked.replan {a b : List (Vehicle R)} {v : Vehicle R} {edit : Edit R}
    (h : state.Tracked last nodes) (hsplit : state.fleet.vehicles = a ++ v :: b)
    (hplans : edit.Plans state.chargers) (hstays : edit.Stays)
    (hroute : ∀ task ∈ edit.inserted?, task.OnRoute) :
    Tracked { state with fleet := ⟨a ++ v.replan edit :: b⟩ } last nodes := by
  have hv : v ∈ state.fleet.vehicles := by simp [hsplit]
  have heach : List.Forall₂ (fun w movement => w.schedule.Valid ∧ w.Tracked last movement)
      state.fleet.vehicles state.movements := h.each.imp fun _ _ hw => ⟨hw.valid, hw⟩
  have hvalid := ((List.forall₂_and_left _ _).mp heach).1 v hv
  refine ⟨?_, ?_, ?_⟩
  · exact forall₂_of_replace (hsplit ▸ h.each) (fun _ _ _ hu => hu)
      fun _ hm => hm.replan hplans hstays hroute
  · refine forall_mem_replace (hsplit ▸ h.supplied) ?_
    have hreplans := v.replans hvalid.inSequence hplans
    exact (Schedule.Rearranged.of_replans hreplans hplans).supplied (h.supplied v hv)
  · simpa [hsplit, Vehicle.replan] using h.nodes

namespace Call

/-- The instant up to which a call executes. -/
def time? : Call R → Option Time
  | step now => some now
  | replan .. => none

/-- A call that puts in tasks as all tasks are built: a drive goes where and when its route does,
and no other task moves the vehicle. -/
def Builds : Call R → Prop
  | step _ => True
  | replan _ edit => edit.Stays ∧ ∀ task ∈ edit.inserted?, task.OnRoute

theorem after_tracked {call : Call R} (h : state.Tracked last nodes)
    (hplans : call.Plans state.chargers) (hbuilds : call.Builds)
    (hle : ∀ t ∈ call.time?, last ≤ t) :
    (call.after state).Tracked (call.time?.getD last) nodes ∧
      state.chargers.Keeps (call.after state).chargers := by
  cases call with
  | step now =>
    obtain ⟨events, left, hrun, htracked, -, hkeeps⟩ := h.advance (hle now rfl)
    simp only [after, Action.outcome, hrun]
    exact ⟨htracked, hkeeps⟩
  | replan id edit =>
    rw [after]
    cases hget : state.fleet.get id with
    | error e => exact ⟨h, .refl _⟩
    | ok v =>
      obtain ⟨a, b, hsplit, hlength⟩ := Fleet.get_ok hget
      dsimp only
      rw [Fleet.set_split hsplit hlength]
      exact ⟨h.replan hsplit hplans hbuilds.1 hbuilds.2, .refl _⟩

theorem performAll_tracked {calls : List (Call R)} (h : state.Tracked last nodes)
    (hplans : ∀ call ∈ calls, call.Plans state.chargers) (hbuilds : ∀ call ∈ calls, call.Builds)
    (htimes : (last :: (calls.filterMap time? ++ [now])).Pairwise (· ≤ ·)) :
    ∃ latest ≤ now, (performAll calls state).Tracked latest nodes := by
  induction calls generalizing state last with
  | nil => exact ⟨last, by simpa using htimes, h⟩
  | cons call rest ih =>
    have htime : (∀ t ∈ call.time?, last ≤ t) ∧
        (call.time?.getD last :: (rest.filterMap time? ++ [now])).Pairwise (· ≤ ·) := by
      cases call with
      | step t =>
        obtain ⟨hfirst, hrest⟩ := List.pairwise_cons.mp htimes
        exact ⟨fun t' ht' => hfirst t' (by simp_all [time?]), hrest⟩
      | replan id edit => exact ⟨by simp [time?], htimes⟩
    obtain ⟨hnext, hkeeps⟩ := after_tracked h (hplans call List.mem_cons_self)
      (hbuilds call List.mem_cons_self) htime.1
    exact ih hnext (fun other hother => (hplans other (List.mem_cons_of_mem _ hother)).keeps hkeeps)
      (fun other hother => hbuilds other (List.mem_cons_of_mem _ hother)) htime.2

end Call

/-- From planned tasks on, with steps forward in time and any planning between them, a step leaves
all statuses and movements as its instant tells: what ends by then is over, what goes on is being
executed, what begins later is planned, and the vehicle is on the way of its drive or stands where
its schedule has it. -/
theorem advance_is_on_time {state : FleetState R}
    (hvalid : ∀ v ∈ state.fleet.vehicles, v.schedule.validate = .ok ())
    (hplanned : ∀ v ∈ state.fleet.vehicles, ∀ task ∈ v.schedule.tasks, task.status = .planned)
    (hroutes : ∀ v ∈ state.fleet.vehicles, ∀ task ∈ v.schedule.tasks, task.OnRoute)
    (hsupplied : ∀ v ∈ state.fleet.vehicles, v.schedule.Supplied state.chargers)
    (hmovements : state.movements = Movement.ofFleet state.fleet) {calls : List (Call R)}
    (hplans : ∀ call ∈ calls, call.Plans state.chargers) (hbuilds : ∀ call ∈ calls, call.Builds)
    {now : Time} (htimes : (calls.filterMap Call.time? ++ [now]).Pairwise (· ≤ ·)) :
    ∃ events left, FleetState.advance now (Call.performAll calls state) = .ok events left ∧
      List.Forall₂ (Vehicle.OnTime now) left.fleet.vehicles left.movements ∧
      left.fleet.vehicles.map Vehicle.startNode = state.fleet.vehicles.map Vehicle.startNode := by
  have hstart : state.Tracked .zero (state.fleet.vehicles.map Vehicle.startNode) := by
    refine ⟨?_, hsupplied, rfl⟩
    rw [hmovements, Movement.ofFleet, List.forall₂_map_right_iff, List.forall₂_same]
    intro v hv
    have hnone : v.schedule.begun = [] :=
      Schedule.begun_eq (List.nil_append _).symm (by simp) (hplanned v hv)
    refine ⟨Schedule.validate_eq_ok_iff.mp (hvalid v hv), hroutes v hv, by simp [hnone], ?_⟩
    rw [Schedule.movement, hnone]
    rfl
  have hforward : (Time.zero :: (calls.filterMap Call.time? ++ [now])).Pairwise (· ≤ ·) :=
    List.pairwise_cons.mpr ⟨fun t _ => Nat.zero_le t.secs, htimes⟩
  obtain ⟨latest, hle, hlater⟩ := Call.performAll_tracked hstart hplans hbuilds hforward
  obtain ⟨events, left, hrun, htracked, hontime, -⟩ := hlater.advance hle
  exact ⟨events, left, hrun, hontime, htracked.nodes⟩

/-- Idle time that has been begun is cut at an instant that has passed; charging that is already
over and a drive on which the vehicle should be are put in. Another step at the same instant catches
up with them. -/
theorem advance_is_on_time_late_drive :
    let route : Route Rat := ⟨[], ⟨0⟩, ⟨1⟩, .ofSecs 40, .ofSecs 60, 0⟩
    let session := (Task.charge ⟨7⟩ ⟨0⟩ (.ofSecs 30) (.ofSecs 40)).withEnergy 5
    let v : Vehicle Rat :=
      ⟨⟨0⟩, ⟨0⟩, .zero, .ofSecs 100, 4, none, ⟨[Task.stay ⟨0⟩ .zero (.ofSecs 100)]⟩⟩
    let fleet : Fleet Rat := ⟨[v]⟩
    let state : FleetState Rat := ⟨fleet, Movement.ofFleet fleet, ⟨[⟨⟨7⟩, ⟨0⟩, 50, 1, []⟩]⟩⟩
    let calls : List (Call Rat) :=
      [.step (.ofSecs 50), .replan ⟨0⟩ (.splitStayAt (.ofSecs 30)),
        .replan ⟨0⟩ (.insert session 1), .replan ⟨0⟩ (.insert (Task.drive route) 2)]
    ∃ events left,
      FleetState.advance (.ofSecs 50) (Call.performAll calls state) = .ok events left ∧
      List.Forall₂ (Vehicle.OnTime (.ofSecs 50)) left.fleet.vehicles left.movements ∧
      left.movements = [⟨true, ⟨0⟩, ⟨1⟩, .ofSecs 40, .ofSecs 60⟩] ∧
      (left.fleet.vehicles.map fun v => v.schedule.tasks.map Task.status) =
        [[.performed, .performed, .started, .planned]] := by
  intro route session v fleet state calls
  have hroute : (Task.drive route).OnRoute := by
    intro other hkind
    obtain rfl := TaskKind.drive.inj hkind
    exact ⟨rfl, rfl, rfl, rfl⟩
  have hsession : session.OnRoute := fun other hkind => by cases hkind
  obtain ⟨events, left, hrun, hontime, -⟩ := @advance_is_on_time Rat _ state (by decide) (by decide)
    (by simpa [state, fleet, v] using Task.OnRoute.of_isStay (by rfl))
    (by simp [state, fleet, v, Schedule.Supplied, Task.stay]) rfl calls
    (by simp [calls, Call.Plans, Edit.Plans, session, Task.charge, Task.drive, Task.withEnergy,
      state, ChargerPool.find?])
    (by simpa [calls, Call.Builds, Edit.Stays, Edit.inserted?] using
      ⟨⟨.inr rfl, hsession⟩, .inl rfl, hroute⟩)
    (.ofSecs 50) (by decide)
  have hleft : ((FleetState.advance (.ofSecs 50)).outcome
      (Call.performAll calls state)).2.movements = [⟨true, ⟨0⟩, ⟨1⟩, .ofSecs 40, .ofSecs 60⟩] ∧
      (((FleetState.advance (.ofSecs 50)).outcome
        (Call.performAll calls state)).2.fleet.vehicles.map fun v =>
          v.schedule.tasks.map Task.status) =
        [[.performed, .performed, .started, .planned]] := by decide +kernel
  simp only [Action.outcome, hrun] at hleft
  exact ⟨events, left, hrun, hontime, hleft⟩

/-- Idle time that is put in need not end where it begins, and nothing carries the vehicle there:
once it is over, the vehicle still stands where it began. -/
theorem advance_leaves_behind :
    let v : Vehicle Rat :=
      ⟨⟨0⟩, ⟨0⟩, .zero, .ofSecs 100, 4, none, ⟨[Task.stay ⟨0⟩ .zero (.ofSecs 100)]⟩⟩
    let fleet : Fleet Rat := ⟨[v]⟩
    let state : FleetState Rat := ⟨fleet, Movement.ofFleet fleet, ⟨[]⟩⟩
    let stray : Task Rat := { Task.stay ⟨0⟩ .zero (.ofSecs 100) with target := ⟨1⟩ }
    let calls : List (Call Rat) := [.replan ⟨0⟩ (.insert stray 0)]
    v.schedule.validate = .ok () ∧ (∀ task ∈ v.schedule.tasks, task.status = .planned) ∧
      (∀ call ∈ calls, call.Plans state.chargers) ∧ stray.OnRoute ∧
      Schedule.InPlace.insert stray 0 v.schedule = .ok 0 ⟨[stray]⟩ ∧
      ∃ events left w movement,
        FleetState.advance (.ofSecs 100) (Call.performAll calls state) = .ok events left ∧
        left.fleet.vehicles = [w] ∧ left.movements = [movement] ∧
        movement = .stationary ⟨0⟩ .zero ∧ w.placeAt (.ofSecs 100) = ⟨1⟩ ∧
        ¬w.OnTime (.ofSecs 100) movement := by
  intro v fleet state stray calls
  have hinsert : Schedule.InPlace.insert stray 0 v.schedule = .ok 0 ⟨[stray]⟩ :=
    Schedule.InPlace.insert_eq_ok_iff.mpr (by decide)
  refine ⟨by decide, by decide, ?_, .of_isStay rfl, hinsert, ?_⟩
  · simp [calls, Call.Plans, Edit.Plans, stray, Task.stay]
  let ended : Task Rat :=
    { stray with status := .performed, startedAt := some .zero, performedAt := some (.ofSecs 100) }
  let w : Vehicle Rat := { v with schedule := ⟨[ended]⟩ }
  let movement : Movement := .stationary ⟨0⟩ .zero
  have hplace : w.placeAt (.ofSecs 100) = ⟨1⟩ := by decide
  have hends : ((FleetState.advance (.ofSecs 100)).outcome (Call.performAll calls state)).1.isOk =
        true ∧
      ((FleetState.advance (.ofSecs 100)).outcome
        (Call.performAll calls state)).2.fleet.vehicles = [w] ∧
      ((FleetState.advance (.ofSecs 100)).outcome
        (Call.performAll calls state)).2.movements = [movement] := by decide +kernel
  cases hrun : FleetState.advance (.ofSecs 100) (Call.performAll calls state) with
  | error e left => simp [Action.outcome, hrun, Except.isOk, Except.toBool] at hends
  | ok events left =>
    simp only [Action.outcome, hrun] at hends
    refine ⟨events, left, w, movement, rfl, hends.2.1, hends.2.2, rfl, hplace, fun hontime => ?_⟩
    have hstands := hontime.stands rfl
    rw [hplace] at hstands
    revert hstands
    decide

end FleetState

end DemandTransport
