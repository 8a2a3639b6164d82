import DemandTransport.Proofs.Execution.Docking
import DemandTransport.Proofs.Schedule.Histories

/-!
# Whereabouts

Where a vehicle is and how far its tasks have been executed is a matter of its schedule and the
clock. A vehicle is tracked if its movement is that which the last task that has been begun leaves
it with. When nothing is due any more, that task is the one to which the instant belongs, or the
last one of all, so statuses and movement are then what the clock says.
-/

namespace DemandTransport

variable {R : Type}

/-! ## The tasks that have been begun -/

namespace Task

/-- A drive has the nodes and the times of its route. -/
def OnRoute (task : Task R) : Prop :=
  ∀ route, task.kind = .drive route → task.source = route.source ∧ task.target = route.target ∧
    task.start = route.departure ∧ task.finish = route.arrival

/-- The vehicle is on its way from one end of the task to the other. -/
def way (task : Task R) : Movement :=
  ⟨true, task.source, task.target, task.start, task.finish⟩

/-- Where a task that has been begun leaves its vehicle. -/
def movement (task : Task R) : Movement :=
  if task.kind.isDrive then
    if task.status = .performed then .stationary task.target task.finish else task.way
  else .stationary task.source task.start

variable {task task' : Task R}

theorem OnRoute.driving_eq (h : task.OnRoute) {route : Route R} (hkind : task.kind = .drive route) :
    .driving route = task.way := by
  obtain ⟨hsource, htarget, hstart, hfinish⟩ := h route hkind
  rw [Movement.driving, way, hsource, htarget, hstart, hfinish]

theorem OnRoute.of_isStay (h : task.isStay = true) : task.OnRoute := by
  intro route hkind
  simp [isStay, TaskKind.isStay, hkind] at h

/-- A change of status leaves a task where it leads. -/
theorem OnRoute.becomes {status : TaskStatus} (h : task.OnRoute)
    (hbecomes : task.Becomes task' status) : task'.OnRoute := by
  intro route hkind
  rw [hbecomes.source, hbecomes.target, hbecomes.start, hbecomes.finish]
  exact h route (hbecomes.kind ▸ hkind)

/-- During a drive the vehicle is on its way. -/
theorem movement_of_drive (hdrive : task.kind.isDrive = true) (hopen : task.status ≠ .performed) :
    task.movement = task.way := by
  rw [movement, if_pos hdrive, if_neg hopen]

/-- After a drive it is where the drive ends. -/
theorem movement_of_ended (hdrive : task.kind.isDrive = true) (hdone : task.status = .performed) :
    task.movement = .stationary task.target task.finish := by
  rw [movement, if_pos hdrive, if_pos hdone]

/-- By any other task it is where the task begins. -/
theorem movement_of_not_drive (hdrive : ¬task.kind.isDrive = true) :
    task.movement = .stationary task.source task.start := by
  rw [movement, if_neg hdrive]

/-- When a task is over, its vehicle is where it ends. -/
theorem movement_of_performed (h : task.Sound) (hdone : task.status = .performed) :
    ∃ since, task.movement = .stationary task.target since := by
  by_cases hdrive : task.kind.isDrive = true
  · exact ⟨task.finish, movement_of_ended hdrive hdone⟩
  · exact ⟨task.start, by rw [movement_of_not_drive hdrive, h.stays.resolve_left hdrive]⟩

end Task

namespace Schedule

/-- The tasks of a schedule that have been begun. -/
def begun (s : Schedule R) : List (Task R) := s.tasks.filter fun task => task.status ≠ .planned

variable {s : Schedule R} {task : Task R}

theorem mem_begun : task ∈ s.begun ↔ task ∈ s.tasks ∧ task.status ≠ .planned := by
  simp [begun]

/-- They are the tasks up to the first planned one. -/
theorem begun_eq {done waiting : List (Task R)} (htasks : s.tasks = done ++ waiting)
    (hdone : ∀ task ∈ done, task.status ≠ .planned)
    (hwaiting : ∀ task ∈ waiting, task.status = .planned) : s.begun = done := by
  have hkept : done.filter (fun task => task.status ≠ .planned) = done := by
    simpa [List.filter_eq_self] using hdone
  have hdropped : waiting.filter (fun task => task.status ≠ .planned) = [] := by
    simpa using hwaiting
  rw [begun, htasks, List.filter_append, hkept, hdropped, List.append_nil]

/-- A task behind tasks that are over is the last of them, once it has been begun. -/
theorem begun_concat {before after : List (Task R)} (htasks : s.tasks = before ++ task :: after)
    (hdone : ∀ a ∈ before, a.status = .performed) (hbegun : task.status ≠ .planned)
    (hplanned : ∀ b ∈ after, b.status = .planned) : s.begun = before ++ [task] := by
  refine begun_eq (by simp [htasks]) (fun a ha => ?_) hplanned
  rcases List.mem_append.mp ha with hin | hin
  · simp [hdone a hin]
  · rwa [List.mem_singleton.mp hin]

/-- The tasks that have begun come first. -/
theorem Valid.exists_waiting (h : s.Valid) :
    ∃ waiting, s.tasks = s.begun ++ waiting ∧ ∀ task ∈ waiting, task.status = .planned := by
  obtain ⟨done, running, waiting, htasks, hdone, ⟨-, hrunning⟩, hwaiting⟩ := h.exists_phases
  refine ⟨waiting, ?_, hwaiting⟩
  rw [begun_eq htasks (fun task htask => ?_) hwaiting, htasks]
  rcases List.mem_append.mp htask with hin | hin
  · simp [hdone task hin]
  · simp [hrunning task hin]

/-- Where execution has left a vehicle that stood somewhere at first. -/
def movement (s : Schedule R) (first : Movement) : Movement :=
  (s.begun.getLast?.map Task.movement).getD first

/-- The last task that has begun says where the vehicle is. -/
theorem movement_of_begun {before : List (Task R)} (h : s.begun = before ++ [task])
    (first : Movement) : s.movement first = task.movement := by
  simp [movement, h]

end Schedule

/-! ## One vehicle -/

/-- A vehicle whose movement is that of the last task that has been begun, where all that has been
begun or has ended did so by an instant. -/
structure Vehicle.Tracked (last : Time) (v : Vehicle R) (movement : Movement) : Prop where
  valid : v.schedule.Valid
  onRoute : ∀ task ∈ v.schedule.tasks, task.OnRoute
  begun : ∀ task ∈ v.schedule.begun,
    task.start ≤ last ∧ (task.status = .performed → task.finish ≤ last)
  movement : movement = v.schedule.movement (.stationary v.startNode v.start)

/-- Where a vehicle that does not drive is at an instant: where the task of that instant begins,
after all tasks where the last one ends, and before them where the vehicle starts. -/
def Vehicle.placeAt (v : Vehicle R) (now : Time) : NodeId :=
  match v.schedule.tasks.find? fun task => task.Covers now with
  | some task => task.source
  | none =>
    match v.schedule.tasks.getLast? with
    | some task => if task.finish ≤ now then task.target else v.startNode
    | none => v.startNode

section Place

variable {v : Vehicle R} {now : Time}

/-- At an instant that belongs to one task, the vehicle is where that task begins. -/
theorem Vehicle.placeAt_of_covers {task : Task R} (htask : task ∈ v.schedule.tasks)
    (hcovers : task.Covers now)
    (honly : ∀ other ∈ v.schedule.tasks, other.Covers now → other = task) :
    v.placeAt now = task.source := by
  unfold placeAt
  cases hfind : v.schedule.tasks.find? fun task => task.Covers now with
  | none => exact (List.find?_eq_none.mp hfind task htask (by simpa using hcovers)).elim
  | some other =>
    have hother := List.find?_some hfind
    rw [honly other (List.mem_of_find?_eq_some hfind) (by simpa using hother)]

/-- At an instant that belongs to no task, it is where the last task ends or where it starts. -/
theorem Vehicle.placeAt_of_not_covers (h : ∀ task ∈ v.schedule.tasks, ¬task.Covers now) :
    v.placeAt now =
      match v.schedule.tasks.getLast? with
      | some task => if task.finish ≤ now then task.target else v.startNode
      | none => v.startNode := by
  have hfind : (v.schedule.tasks.find? fun task => task.Covers now) = none :=
    List.find?_eq_none.mpr fun task htask => by simpa using h task htask
  rw [placeAt, hfind]

end Place

/-- The statuses of the tasks of a schedule are what the clock says. -/
structure Schedule.OnTime (now : Time) (s : Schedule R) : Prop where
  /-- What ends by now is over. -/
  ended : ∀ task ∈ s.tasks, task.finish ≤ now → task.status = .performed
  /-- The task of this instant is being executed. -/
  goes : ∀ task ∈ s.tasks, task.Covers now → task.status = .started
  /-- What begins later is planned. -/
  waits : ∀ task ∈ s.tasks, now < task.start → task.status = .planned

/-- So is the movement of a vehicle. -/
structure Vehicle.OnTime (now : Time) (v : Vehicle R) (movement : Movement) : Prop extends
    v.schedule.OnTime now where
  /-- The vehicle moves exactly while it executes a drive. -/
  moves : movement.inTransit = true ↔
    ∃ task ∈ v.schedule.tasks, task.status = .started ∧ task.kind.isDrive = true
  /-- It is on the way of that drive, which is that of its route. -/
  drives : ∀ task ∈ v.schedule.tasks, task.status = .started →
    ∀ route, task.kind = .drive route → movement = .driving route ∧ movement = task.way
  /-- Otherwise it stands where the schedule has it. -/
  stands : movement.inTransit = false → movement = .stationary (v.placeAt now) movement.arrival

/-- A vehicle that stands at its place does not execute a drive. -/
theorem Vehicle.OnTime.of_stationary {v : Vehicle R} {now since : Time}
    (hclock : v.schedule.OnTime now)
    (hidle : ∀ task ∈ v.schedule.tasks, task.status = .started → ¬task.kind.isDrive = true) :
    v.OnTime now (.stationary (v.placeAt now) since) := by
  refine ⟨hclock, ⟨fun hmoves => Bool.noConfusion hmoves, ?_⟩, ?_, fun _ => rfl⟩
  · rintro ⟨task, htask, hstarted, hdrive⟩
    exact (hidle task htask hstarted hdrive).elim
  · intro task htask hstarted route hkind
    exact (hidle task htask hstarted (by rw [hkind]; rfl)).elim

namespace Vehicle.Tracked

variable {last now : Time} {v : Vehicle R} {movement : Movement}

theorem mono (h : v.Tracked last movement) (hle : last ≤ now) : v.Tracked now movement where
  valid := h.valid
  onRoute := h.onRoute
  begun task htask := by
    obtain ⟨hstart, hfinish⟩ := h.begun task htask
    exact ⟨Nat.le_trans hstart hle, fun hdone => Nat.le_trans (hfinish hdone) hle⟩
  movement := h.movement

/-! ### What the clock says -/

theorem schedule_onTime (h : v.Tracked now movement) (hrest : v.schedule.AtRest now) :
    v.schedule.OnTime now := by
  have hlater := h.valid.inSequence.later_of_atRest hrest
  constructor
  · intro task htask hfinish
    by_contra hopen
    exact Nat.not_lt_of_le hfinish ((hlater task htask).2 hopen)
  · intro task htask hcovers
    cases hstatus : task.status with
    | planned => exact (Nat.not_lt_of_le hcovers.1 ((hlater task htask).1 hstatus)).elim
    | started => rfl
    | performed =>
      have hbegun := h.begun task (Schedule.mem_begun.mpr ⟨htask, by simp [hstatus]⟩)
      exact (Nat.not_lt_of_le (hbegun.2 hstatus) hcovers.2).elim
  · intro task htask hstart
    by_contra hbegun
    have hstarted := h.begun task (Schedule.mem_begun.mpr ⟨htask, hbegun⟩)
    exact Nat.not_lt_of_le hstarted.1 hstart

/-- The movement is the first one, or that of the last task that has been begun. -/
theorem movement_cases (h : v.Tracked last movement) :
    (∀ task ∈ v.schedule.tasks, task.status = .planned) ∧
        movement = .stationary v.startNode v.start ∨
      ∃ before task after, v.schedule.tasks = before ++ task :: after ∧
        (∀ a ∈ before, a.status = .performed) ∧ task.status ≠ .planned ∧
        (∀ b ∈ after, b.status = .planned) ∧ movement = task.movement := by
  obtain ⟨waiting, htasks, hwaiting⟩ := h.valid.exists_waiting
  have hmovement := h.movement
  rcases List.eq_nil_or_concat v.schedule.begun with hnone | ⟨before, task, hbegun⟩
  · left
    rw [htasks, hnone]
    refine ⟨hwaiting, ?_⟩
    rw [hmovement, Schedule.movement, hnone]
    rfl
  · right
    rw [List.concat_eq_append] at hbegun
    have htask : task ∈ v.schedule.begun := by simp [hbegun]
    have hstatus := (Schedule.mem_begun.mp htask).2
    have hsplit : v.schedule.tasks = before ++ task :: waiting := by simp [htasks, hbegun]
    have hvalid := h.valid
    rw [Schedule.eq_of_tasks hsplit] at hvalid
    exact ⟨before, task, waiting, hsplit, hvalid.performed_before hstatus, hstatus, hwaiting,
      hmovement.trans (Schedule.movement_of_begun hbegun _)⟩

/-- Before its tasks and after them a vehicle stands at an end of its schedule. -/
theorem stationary_of_idle (h : v.Tracked now movement) (hrest : v.schedule.AtRest now)
    (hidle : ∀ task ∈ v.schedule.tasks, task.status ≠ .started) :
    ∃ since, movement = .stationary (v.placeAt now) since := by
  have hoff : ∀ task ∈ v.schedule.tasks, ¬task.Covers now := fun task htask hcovers =>
    hidle task htask ((h.schedule_onTime hrest).goes task htask hcovers)
  have hlater := h.valid.inSequence.later_of_atRest hrest
  rw [placeAt_of_not_covers hoff]
  rcases h.movement_cases with ⟨hplanned, rfl⟩ |
    ⟨before, task, after, htasks, -, hbegun, hplanned, rfl⟩
  · refine ⟨v.start, ?_⟩
    cases hlast : v.schedule.tasks.getLast? with
    | none => rfl
    | some task =>
      have htask := List.mem_of_getLast? hlast
      have hfinish := (hlater task htask).2 (by simp [hplanned task htask])
      exact congrArg (Movement.stationary · v.start) (if_neg (Nat.not_le_of_lt hfinish)).symm
  · have htask : task ∈ v.schedule.tasks := by simp [htasks]
    have hdone : task.status = .performed := by
      have hgoes := hidle task htask
      cases hstatus : task.status <;> simp_all
    have hfinish := (h.begun task (Schedule.mem_begun.mpr ⟨htask, hbegun⟩)).2 hdone
    have hlast : after = [] := by
      cases after with
      | nil => rfl
      | cons next rest =>
        have hseams := h.valid.seams
        rw [htasks] at hseams
        have hseam := (List.isChain_cons_cons.mp (List.isChain_append.mp hseams).2.1).1
        have hnext := (hlater next (by simp [htasks])).1 (hplanned next List.mem_cons_self)
        rw [← hseam.time] at hnext
        exact (Nat.not_lt_of_le hfinish hnext).elim
    obtain ⟨since, hstands⟩ := Task.movement_of_performed (h.valid.sound task htask) hdone
    refine ⟨since, ?_⟩
    rw [hstands, htasks, hlast]
    simp only [List.getLast?_append, List.getLast?_singleton, Option.some_or, if_pos hfinish]

/-- The movement of a vehicle that executes a task is that of this task. -/
theorem exists_running (h : v.Tracked last movement)
    (hruns : ¬∀ task ∈ v.schedule.tasks, task.status ≠ .started) :
    ∃ task ∈ v.schedule.tasks, task.status = .started ∧ movement = task.movement ∧
      ∀ other ∈ v.schedule.tasks, other.status = .started → other = task := by
  push Not at hruns
  obtain ⟨running, hrunning, hstarted⟩ := hruns
  rcases h.movement_cases with ⟨hplanned, -⟩ |
    ⟨before, task, after, htasks, hdone, -, hplanned, hmovement⟩
  · simp [hplanned running hrunning] at hstarted
  · have honly : ∀ other ∈ v.schedule.tasks, other.status = .started → other = task :=
      fun other hother => Schedule.eq_of_started hdone hplanned (htasks ▸ hother)
    obtain rfl := honly running hrunning hstarted
    exact ⟨running, hrunning, hstarted, hmovement, honly⟩

/-- When nothing is due, statuses and movement are what the clock says. -/
theorem onTime (h : v.Tracked now movement) (hrest : v.schedule.AtRest now) :
    v.OnTime now movement := by
  have hclock := h.schedule_onTime hrest
  by_cases hidle : ∀ task ∈ v.schedule.tasks, task.status ≠ .started
  · obtain ⟨since, rfl⟩ := h.stationary_of_idle hrest hidle
    exact .of_stationary hclock fun task htask hstarted => (hidle task htask hstarted).elim
  obtain ⟨task, htask, hstarted, rfl, honly⟩ := h.exists_running hidle
  by_cases hdrive : task.kind.isDrive = true
  · have hway := Task.movement_of_drive hdrive (by simp [hstarted] : task.status ≠ .performed)
    rw [hway]
    refine ⟨hclock, ⟨fun _ => ⟨task, htask, hstarted, hdrive⟩, fun _ => rfl⟩,
      fun other hother hgoes route hkind => ?_, fun hstands => Bool.noConfusion hstands⟩
    obtain rfl := honly other hother hgoes
    exact ⟨((h.onRoute other htask).driving_eq hkind).symm, rfl⟩
  · have hbegun := h.begun task (Schedule.mem_begun.mpr ⟨htask, by simp [hstarted]⟩)
    have hlater := h.valid.inSequence.later_of_atRest hrest task htask
    have hplace : v.placeAt now = task.source :=
      placeAt_of_covers htask ⟨hbegun.1, hlater.2 (by simp [hstarted])⟩
        fun other hother hcovers => honly other hother (hclock.goes other hother hcovers)
    rw [Task.movement_of_not_drive hdrive, ← hplace]
    refine .of_stationary hclock fun other hother hgoes => ?_
    rwa [honly other hother hgoes]

end Vehicle.Tracked

end DemandTransport
