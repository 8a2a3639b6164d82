import DemandTransport.Proofs.Execution.Charging

/-!
# All that happens is told

A beat adds one occurrence to the past of its vehicle, the one that its event tells, and planning
adds none. So the events that have been told of each vehicle, in the order in which they were told,
are always what has happened in its schedule.
-/

namespace DemandTransport

variable {R : Type}

/-- What is told of a task is the kind of its work, if no plug is missing. -/
theorem Plugging.activity_of_plugged {pool pool' : ChargerPool R} {id : VehicleId}
    {kind : TaskKind R} {event : TaskEvent R}
    (h : Plugging pool id kind event.phase event.activity pool')
    (hplugged : event.unplugged = false) : event.activity = Activity.ofKind kind := by
  generalize event.phase = phase at h
  generalize hactivity : event.activity = activity at h
  cases h with
  | taken _ | none _ => rfl
  | @refused charger _ _ => exact (event.activity_ne hplugged charger hactivity).elim
  | @given charger held _ _ =>
    cases held with
    | true => rfl
    | false => exact (event.activity_ne hplugged charger hactivity).elim

/-- A beat adds the one occurrence that its event tells, if no plug is missing. -/
theorem Beat.occurrences [Scalar R] {now : Time} {v v' : Vehicle R} {pool pool' : ChargerPool R}
    {event : TaskEvent R} (h : Beat now v pool event v' pool') (hvalid : v.schedule.Valid)
    (hplugged : event.unplugged = false) :
    v'.schedule.occurrences = v.schedule.occurrences ++ [event.occurrence] := by
  obtain ⟨before, after, task, task', htasks, -, hbecomes, -, hvehicle, -, hplugging, -, htime,
    hindex⟩ := h
  have hopen := hbecomes.not_over
  have hbehind : ∀ b ∈ after, b.status = .planned := by
    rw [Schedule.eq_of_tasks htasks] at hvalid
    exact hvalid.planned_after hopen
  have hold : v.schedule.occurrences =
      occurrencesFrom 0 before ++ task.occurrences before.length := by
    rw [Schedule.occurrences, htasks, occurrencesFrom_append, Nat.zero_add,
      occurrencesFrom_cons (fun b hb => .inr (hbehind b hb)) hopen]
  have hnew : v'.schedule.occurrences =
      occurrencesFrom 0 before ++ task'.occurrences before.length := by
    rw [Schedule.occurrences, hvehicle.tasks, occurrencesFrom_append, Nat.zero_add,
      occurrencesFrom, occurrencesFrom_planned hbehind, List.append_nil]
  have hsame (phase : TaskPhase) :
      task'.occurrence before.length phase = task.occurrence before.length phase := by
    cases phase <;>
      simp [Task.occurrence, TaskPhase.time, hbecomes.kind, hbecomes.start, hbecomes.finish]
  have htold : event.occurrence = task.occurrence before.length event.phase := by
    rw [TaskEvent.occurrence, hindex, hplugging.activity_of_plugged hplugged, htime]
    rfl
  rw [hold, hnew, htold, List.append_assoc]
  congr 1
  cases hphase : event.phase with
  | started =>
    rw [hphase] at hbecomes
    simp [Task.occurrences, hbecomes.was_planned, hbecomes.status, TaskPhase.status, hsame]
  | ended =>
    rw [hphase] at hbecomes
    simp [Task.occurrences, hbecomes.was_started, hbecomes.status, TaskPhase.status, hsame]

/-- The account that keeps every event. -/
def TaskEvent.append (past : List (TaskEvent R)) (event : TaskEvent R) :
    Except Empty (List (TaskEvent R)) :=
  .ok (past ++ [event])

theorem TaskEvent.past_of_noted {past last events : List (TaskEvent R)}
    (h : events.foldlM TaskEvent.append past = .ok last) : last = past ++ events := by
  induction events generalizing past with
  | nil => simpa [pure, Except.pure] using h.symm
  | cons event rest ih =>
    simp only [List.foldlM_cons, TaskEvent.append, bind, Except.bind] at h
    simpa using ih h

/-! ## The past of all vehicles -/

/-- What has been told of each vehicle is what has happened in its schedule. -/
def Told (past : List (TaskEvent R)) (vehicles : List (Vehicle R)) : Prop :=
  ∀ v ∈ vehicles, (past.filter fun event => event.vehicle = v.id).map TaskEvent.occurrence =
    v.schedule.occurrences

namespace Told

variable {past : List (TaskEvent R)} {a b : List (Vehicle R)} {v v' : Vehicle R}
  {grid : StepGrid}

/-- Planning for a vehicle adds nothing to its past. -/
theorem replanned {added : List Booking} (h : Told past (a ++ v :: b))
    (hvalid : v.schedule.Valid) (hv : v.Replanned grid added v') : Told past (a ++ v' :: b) := by
  refine forall_mem_replace h ?_
  rw [hv.schedule.tells hvalid, ← h v (by simp), hv.same]

variable [Scalar R]

/-- A beat adds to the past of its vehicle what its event tells, and nothing to that of any other
vehicle. -/
theorem beat {now : Time} {pool pool' : ChargerPool R} {event : TaskEvent R}
    (h : Told past (a ++ v :: b)) (hnumbered : Numbered (a ++ v :: b)) (hvalid : v.schedule.Valid)
    (hbeat : Beat now v pool event v' pool') (hplugged : event.unplugged = false) :
    Told (past ++ [event]) (a ++ v' :: b) := by
  have hadds := hbeat.occurrences hvalid hplugged
  obtain ⟨_, _, _, _, -, -, -, -, hvehicle, hnames, -⟩ := hbeat
  have hnodup := (hnumbered.replace hvehicle.id).nodup
  intro w hw
  rw [List.filter_append, List.map_append]
  by_cases hid : w.id = v.id
  · obtain rfl := List.inj_on_of_nodup_map hnodup hw (by simp) (hid.trans hvehicle.id.symm)
    have hpast := h v (by simp)
    rw [← hid] at hpast
    rw [hpast, hadds]
    simp [hnames, hid]
  · have hother : w ≠ v' := fun heq => hid (heq ▸ hvehicle.id)
    have hstays : w ∈ a ++ v :: b := by
      rcases List.mem_append.mp hw with hfront | hback
      · exact List.mem_append_left _ hfront
      · have hrest := (List.mem_cons.mp hback).resolve_left hother
        exact List.mem_append_right _ (List.mem_cons_of_mem _ hrest)
    rw [h w hstays]
    simp [hnames, Ne.symm hid]

/-- What happens in the course of execution is all told. -/
theorem steady {now : Time} (hsnap : ∀ t ≤ now, grid.snap t ≤ now) :
    Steady now (TaskEvent.append (R := R))
      fun vs pool past => Accommodated grid now now pool vs ∧ Told past vs where
  ready h v hv := ⟨(h.1.roster.valid v hv).toValid.inSequence, h.1.roster.supplied v hv⟩
  beat h hbeat := by
    obtain ⟨hplugged, hnext⟩ := h.1.beat hsnap hbeat
    exact ⟨_, rfl, hnext,
      h.2.beat h.1.roster.numbered h.1.roster.valid_at.toValid hbeat hplugged⟩

end Told

end DemandTransport
