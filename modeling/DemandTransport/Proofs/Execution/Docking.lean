import DemandTransport.Proofs.Execution.Course
import DemandTransport.Proofs.Fleet.Roster

/-!
# Plugs belong to sessions

A vehicle holds a plug of a charger only while it executes a charging task there, and a vehicle that
executes one without a plug has given up its energy. Beats keep this, for a plug is taken and given
back together with the start and the end of the task, and so does planning, which leaves the task
that is being executed alone. It needs no order of the vehicles in time: they may be brought up to
any instants, forward or back, and chargers may be overbooked as much as they like.
-/

namespace DemandTransport

variable {R : Type}

/-- A task that is being executed charges at a charger. -/
def Task.ChargesAt (task : Task R) (charger : ChargerId) : Prop :=
  task.status = .started ∧ task.kind = .charge charger

/-- No vehicle holds two plugs of one charger, and no more plugs are held than there are. -/
def ChargerPool.Orderly (pool : ChargerPool R) : Prop :=
  ∀ charger, (pool.plugged charger).Nodup ∧ (pool.plugged charger).length ≤ pool.plugs charger

theorem ChargerPool.Unused.plugged {pool : ChargerPool R} (h : pool.Unused)
    (charger : ChargerId) : pool.plugged charger = [] := by
  unfold ChargerPool.plugged
  cases hfound : pool.find? charger with
  | none => rfl
  | some found => exact h.free found (List.mem_of_find?_eq_some hfound)

/-! ## Plugs in a beat -/

namespace Plugging

variable {pool pool' : ChargerPool R} {id other : VehicleId} {kind : TaskKind R}
  {phase : TaskPhase} {activity : Activity}

/-- Other vehicles keep their plugs and get none. -/
theorem plugged_of_ne (h : Plugging pool id kind phase activity pool') (hne : other ≠ id)
    (charger : ChargerId) : other ∈ pool'.plugged charger ↔ other ∈ pool.plugged charger := by
  cases h with
  | taken h =>
    rw [(ChargerPool.occupy_ok h).2]
    split
    next hsame => simp [hsame.1, hne]
    next => rfl
  | refused _ | none _ => rfl
  | given h =>
    rw [(ChargerPool.release_ok h).2.2]
    split
    next hsame => rw [List.mem_erase_of_ne hne, hsame]
    next => rfl

theorem orderly (h : Plugging pool id kind phase activity pool') (hpool : pool.Orderly) :
    pool'.Orderly := by
  intro charger
  rw [h.keeps.plugs]
  cases h with
  | taken h =>
    rw [(ChargerPool.occupy_ok h).2]
    split
    next hnew =>
      obtain ⟨rfl, hout⟩ := hnew
      have hroom := ChargerPool.occupy_room h hout
      refine ⟨List.nodup_append.mpr ⟨(hpool charger).1, List.nodup_singleton _, ?_⟩, by simpa⟩
      rintro x hx y hy rfl
      exact hout (List.mem_singleton.mp hy ▸ hx)
    next => exact hpool charger
  | refused _ | none _ => exact hpool charger
  | given h =>
    rw [(ChargerPool.release_ok h).2.2]
    split
    next hsame =>
      subst hsame
      exact ⟨(hpool charger).1.erase _, (List.length_erase_le).trans (hpool charger).2⟩
    next => exact hpool charger

end Plugging

namespace Schedule

/-- The only task of a schedule that can be executed is the one between those that are over and
those that are planned. -/
theorem eq_of_started {before after : List (Task R)} {task running : Task R}
    (hdone : ∀ a ∈ before, a.status = .performed) (hplanned : ∀ b ∈ after, b.status = .planned)
    (hmem : running ∈ before ++ task :: after) (hstarted : running.status = .started) :
    running = task := by
  rcases List.mem_append.mp hmem with hbefore | hbehind
  · simp [hdone running hbefore] at hstarted
  · refine (List.mem_cons.mp hbehind).resolve_right fun hafter => ?_
    simp [hplanned running hafter] at hstarted

/-- At most one task of an ordered schedule is being executed. -/
theorem InSequence.filter_started {s : Schedule R} {task : Task R} (h : s.InSequence)
    (hmem : task ∈ s.tasks) (hstarted : task.status = .started) :
    s.tasks.filter (fun other => other.status = .started) = [task] := by
  obtain ⟨before, after, htasks⟩ := List.append_of_mem hmem
  rw [eq_of_tasks htasks] at h ⊢
  have hdone := h.performed_before (by simp [hstarted])
  have hplanned := h.planned_after (by simp [hstarted])
  have hbefore : before.filter (fun other => other.status = .started) = [] := by
    simpa using fun a ha => by simp [hdone a ha]
  have hafter : after.filter (fun other => other.status = .started) = [] := by
    simpa using fun b hb => by simp [hplanned b hb]
  simp [List.filter_append, hstarted, hbefore, hafter]

end Schedule

/-! ## One vehicle -/

/-- A vehicle whose plugs are those of the task that it executes. -/
structure Vehicle.Docked [Scalar R] (v : Vehicle R) (pool : ChargerPool R) : Prop where
  ordered : v.schedule.InSequence
  supplied : v.schedule.Supplied pool
  /-- A plug is held for a charging task. -/
  held : ∀ charger, v.id ∈ pool.plugged charger →
    ∃ task ∈ v.schedule.tasks, task.ChargesAt charger
  /-- Without a plug, the energy is given up. -/
  forfeited : ∀ task ∈ v.schedule.tasks, ∀ charger, task.ChargesAt charger →
    v.id ∈ pool.plugged charger ∨ task.energy = some 0.0

variable [Scalar R] {pool pool' : ChargerPool R} {v v' : Vehicle R}

/-- A beat keeps the tasks of its vehicle in order. -/
theorem Beat.inSequence {now : Time} {event : TaskEvent R} (h : Beat now v pool event v' pool')
    (hv : v.schedule.InSequence) : v'.schedule.InSequence := by
  obtain ⟨before, after, task, task', htasks, hdone, hbecomes, -, hvehicle, -⟩ := h
  rw [Schedule.eq_of_tasks htasks] at hv
  rw [Schedule.eq_of_tasks hvehicle.tasks]
  exact hv.becomes hdone hbecomes

/-- A plug is taken at the start of a charging task, or its energy is given up, and the plug is
given back at the end. -/
theorem Plugging.docks {task task' : Task R} {id : VehicleId} {phase : TaskPhase}
    {activity : Activity} (h : Plugging pool id task.kind phase activity pool')
    (hpool : pool.Orderly) (hbecomes : task.Becomes task' phase.status)
    (hpowering : Powering v v' task task' phase activity)
    (hold : ∀ charger, id ∈ pool.plugged charger → task.ChargesAt charger) :
    (∀ charger, id ∈ pool'.plugged charger → task'.ChargesAt charger) ∧
      ∀ charger, task'.ChargesAt charger →
        id ∈ pool'.plugged charger ∨
          activity = .charge charger false ∧ task'.energy = some 0.0 := by
  unfold Task.ChargesAt at hold ⊢
  rw [hbecomes.status, hbecomes.kind]
  generalize task.kind = kind at h hold
  cases h with
  | @taken charger _ hoccupy =>
    have hidle (c : ChargerId) : id ∉ pool.plugged c := fun hin =>
      TaskStatus.noConfusion (hbecomes.was_planned.symm.trans (hold c hin).1)
    refine ⟨fun c hin => ⟨rfl, ?_⟩, fun c hcharges => .inl ?_⟩
    · rw [(ChargerPool.occupy_ok hoccupy).2] at hin
      split at hin
      next hnew => rw [hnew.1]
      next => exact (hidle c hin).elim
    · obtain rfl := TaskKind.charge.inj hcharges.2
      rw [(ChargerPool.occupy_ok hoccupy).2, if_pos ⟨rfl, hidle charger⟩]
      simp
  | @refused charger plugs hfull =>
    refine ⟨fun c hin => ⟨rfl, (hold c hin).2⟩, fun c hcharges => .inr ?_⟩
    obtain rfl := TaskKind.charge.inj hcharges.2
    cases hpowering with
    | kept _ _ hplugged => exact (hplugged charger rfl).elim
    | forfeited _ haccount => exact ⟨rfl, haccount⟩
  | @given charger held _ hrelease =>
    refine ⟨fun c hin => ?_, fun c hcharges => by simp [TaskPhase.status] at hcharges⟩
    rw [(ChargerPool.release_ok hrelease).2.2] at hin
    split at hin
    next => exact ((hpool charger).1.not_mem_erase hin).elim
    next hother => exact (hother (TaskKind.charge.inj (hold c hin).2).symm).elim
  | none hother =>
    exact ⟨fun c hin => (hother c (hold c hin).2).elim,
      fun c hcharges => (hother c hcharges.2).elim⟩

namespace Vehicle.Docked

/-- What is done at chargers for other vehicles does not matter. -/
theorem of_others (h : v.Docked pool) (hkeeps : pool.Keeps pool')
    (hsame : ∀ charger, v.id ∈ pool'.plugged charger ↔ v.id ∈ pool.plugged charger) :
    v.Docked pool' where
  ordered := h.ordered
  supplied := h.supplied.keeps hkeeps
  held charger hin := h.held charger ((hsame charger).mp hin)
  forfeited task htask charger hcharges :=
    (h.forfeited task htask charger hcharges).imp_left (hsame charger).mpr

/-- After a beat, the plugs of its vehicle are again those of its session, if it tells of a plug. -/
theorem sessions {now : Time} {event : TaskEvent R} (h : v.Docked pool) (hpool : pool.Orderly)
    (hbeat : Beat now v pool event v' pool') :
    (∀ charger, v'.id ∈ pool'.plugged charger →
        ∃ task ∈ v'.schedule.tasks, task.ChargesAt charger) ∧
      ∀ task ∈ v'.schedule.tasks, ∀ charger, task.ChargesAt charger →
        v'.id ∈ pool'.plugged charger ∨
          event.activity = .charge charger false ∧ task.energy = some 0.0 := by
  obtain ⟨before, after, task, task', htasks, hdone, hbecomes, -, hvehicle, -, hplugging,
    hpowering, -⟩ := hbeat
  have hplanned : ∀ b ∈ after, b.status = .planned := by
    have hold := h.ordered
    rw [Schedule.eq_of_tasks htasks] at hold
    exact hold.planned_after hbecomes.not_over
  have hold (charger : ChargerId) (hin : v.id ∈ pool.plugged charger) :
      task.ChargesAt charger := by
    obtain ⟨running, hmem, hcharges⟩ := h.held charger hin
    rw [htasks] at hmem
    exact Schedule.eq_of_started hdone hplanned hmem hcharges.1 ▸ hcharges
  obtain ⟨hheld, hforfeited⟩ := hplugging.docks hpool hbecomes hpowering hold
  rw [hvehicle.id, hvehicle.tasks]
  refine ⟨fun charger hin => ⟨task', by simp, hheld charger hin⟩,
    fun running hmem charger hcharges => ?_⟩
  obtain rfl := Schedule.eq_of_started hdone hplanned hmem hcharges.1
  exact hforfeited charger hcharges

theorem beat {now : Time} {event : TaskEvent R} (h : v.Docked pool) (hpool : pool.Orderly)
    (hbeat : Beat now v pool event v' pool') : v'.Docked pool' := by
  obtain ⟨hheld, hforfeited⟩ := h.sessions hpool hbeat
  exact ⟨hbeat.inSequence h.ordered, hbeat.supplied_after h.supplied, hheld,
    fun task htask charger hcharges => (hforfeited task htask charger hcharges).imp_right And.right⟩

end Vehicle.Docked

/-! ## All vehicles -/

/-- Vehicles that hold plugs as their tasks tell, and nobody else does. -/
structure Docked (vehicles : List (Vehicle R)) (pool : ChargerPool R) : Prop where
  /-- No two vehicles have one number. -/
  nodup : (vehicles.map Vehicle.id).Nodup
  orderly : pool.Orderly
  /-- Only these vehicles hold plugs. -/
  known : ∀ charger, ∀ id ∈ pool.plugged charger, id ∈ vehicles.map Vehicle.id
  docked : ∀ v ∈ vehicles, v.Docked pool

namespace Docked

variable {a b vehicles : List (Vehicle R)}

theorem id_ne (h : Docked (a ++ v :: b) pool) {w : Vehicle R} (hw : w ∈ a ++ b) :
    w.id ≠ v.id :=
  id_ne_of_nodup h.nodup hw

/-- One vehicle is replaced by another one of its number, and only its plugs have changed. -/
theorem replace (h : Docked (a ++ v :: b) pool) (hid : v'.id = v.id) (hkeeps : pool.Keeps pool')
    (horderly : pool'.Orderly) (hv : v'.Docked pool')
    (hsame : ∀ other ≠ v.id, ∀ charger,
      other ∈ pool'.plugged charger ↔ other ∈ pool.plugged charger) :
    Docked (a ++ v' :: b) pool' := by
  have hids : (a ++ v' :: b).map Vehicle.id = (a ++ v :: b).map Vehicle.id := by simp [hid]
  refine ⟨hids ▸ h.nodup, horderly, fun charger id hin => ?_, fun w hw => ?_⟩
  · rw [hids]
    by_cases heq : id = v.id
    · simp [heq]
    · exact h.known charger id ((hsame id heq charger).mp hin)
  · rcases List.mem_cons.mp (List.perm_middle.mem_iff.mp hw) with rfl | hother
    · exact hv
    · have hw' := List.perm_middle.mem_iff.mpr (List.mem_cons_of_mem v hother)
      exact (h.docked w hw').of_others hkeeps (hsame _ (h.id_ne hother))

theorem beat {now : Time} {event : TaskEvent R} (h : Docked (a ++ v :: b) pool)
    (hbeat : Beat now v pool event v' pool') : Docked (a ++ v' :: b) pool' := by
  have hv := (h.docked v (by simp)).beat h.orderly hbeat
  obtain ⟨_, _, _, _, -, -, -, -, hvehicle, -, hplugging, -⟩ := hbeat
  exact h.replace hvehicle.id hplugging.keeps (hplugging.orderly h.orderly) hv
    fun _ hne => hplugging.plugged_of_ne hne

/-- In the course of execution, plugs go with sessions, at any time. -/
theorem steady (now : Time) (original : ChargerPool R) :
    Steady now (fun (_ : Unit) (_ : TaskEvent R) => (.ok () : Except Empty Unit))
      fun vs pool _ => Docked vs pool ∧ original.Keeps pool where
  ready h w hw := ⟨(h.1.docked w hw).ordered, (h.1.docked w hw).supplied⟩
  beat h hbeat := ⟨(), rfl, h.1.beat hbeat, h.2.trans hbeat.keeps⟩

end Docked

end DemandTransport
