import DemandTransport.Schedule.Basic

/-!
# Changing schedules

New work is carved from planned idle time, so nothing that is already in a schedule moves. A change
that cannot be made is refused with its cause and gives no schedule.
-/

namespace DemandTransport.Schedule

variable {R : Type} [Scalar R]

/-- The schedule with other tasks in the place of the one at an index. -/
def splice (s : Schedule R) (index : Nat) (tasks : List (Task R)) : Schedule R :=
  ⟨s.tasks.take index ++ tasks ++ s.tasks.drop (index + 1)⟩

/-! ## Inserting work -/

/-- Why a task cannot be carved from the idle time at an index, if it cannot. -/
def insertFault? (s : Schedule R) (index : Nat) (stay task : Task R) : Option EditFault :=
  if !stay.isStay then some (.targetNotStay stay.kind.label)
  else if stay.status ≠ .planned then some (.targetNotPlanned stay.status)
  else if task.status ≠ .planned then some (.taskNotPlanned task.status)
  else if task.finish ≤ task.start then some (.emptyTask task.start task.finish)
  else if task.start ≠ stay.start then some (.startsElsewhen task.start stay.start)
  else if stay.finish < task.finish then some (.endsTooLate task.finish stay.finish)
  else if task.source ≠ stay.source then some (.startsElsewhere task.source stay.source)
  else if index + 1 < s.tasks.length ∧ task.target ≠ stay.target then
    some (.strandsNext task.target stay.target)
  else none

/-- What is left of idle time behind a task: nothing, or a stay where the task ends, docked where
the task leaves the vehicle parked. -/
def remainder (stay task : Task R) : List (Task R) :=
  if task.finish = stay.finish then []
  else
    [{ stay.trimHead task.finish with
        kind := .stay task.kind.docksAt, source := task.target, target := task.target }]

/-- Carve a task from the head of the planned idle time at an index. The index at which the task
stands comes with the new schedule. -/
def insert (s : Schedule R) (task : Task R) (index : Nat) :
    Except ScheduleError (Nat × Schedule R) :=
  match s.tasks[index]? with
  | none => .error (.invalidInsertion index (.beyondEnd s.tasks.length))
  | some stay =>
    match s.insertFault? index stay task with
    | some fault => .error (.invalidInsertion index fault)
    | none => .ok (index, s.splice index (task :: remainder stay task))

/-- Why a task cannot be split at an instant that belongs to it, if it cannot. -/
def splitFault? (task : Task R) (t : Time) : Option EditFault :=
  if !task.isStay then some (.unsplittable task.kind.label)
  else if task.status = .performed then some .splitPerformed
  else if t = task.start then some (.splitAtStart t)
  else none

/-- Split the idle time to which an instant belongs. The first part keeps its status and the second
one is planned. The indices of both parts come with the new schedule. -/
def splitStayAt (s : Schedule R) (t : Time) : Except ScheduleError ((Nat × Nat) × Schedule R) := do
  let (index, stay) ← s.current t
  match splitFault? stay t with
  | some fault => .error (.invalidInsertion index fault)
  | none => return ((index, index + 1), s.splice index [stay.headUntil t, stay.tailFrom t])

/-- The index of planned idle time that begins at an instant, made by splitting if need be. -/
def insertionPoint (s : Schedule R) (t : Time) : Except ScheduleError (Nat × Schedule R) := do
  let (index, task) ← s.current t
  if task.start = t then
    if task.isStay ∧ task.status = .planned then return (index, s)
    else .error (.invalidInsertion index (.notPlannedStay task.kind.label t))
  else
    let ((_, after), s) ← s.splitStayAt t
    return (after, s)

/-! ## Executing tasks -/

/-- The status of the task before an index, if one stands in the way of starting the task there. -/
def blocking? (s : Schedule R) (index : Nat) (status : TaskStatus) : Option TaskStatus :=
  if status = .started ∧ 0 < index then
    match s.tasks[index - 1]? with
    | some previous => if previous.status = .performed then none else some previous.status
    | none => none
  else none

/-- Advance the task at an index. A task is started only once the one before it is over. The task
comes with the new schedule. -/
def advance (s : Schedule R) (index : Nat) (status : TaskStatus) (t : Time) :
    Except ScheduleError (Task R × Schedule R) := do
  let task ← s.get index
  match s.blocking? index status with
  | some previous => .error (.invalidTransition previous .started)
  | none =>
    let task ← task.advance status t
    return (task, ⟨s.tasks.set index task⟩)

/-! ## Taking work back -/

/-- The first of some tasks that is not planned, with its index. -/
def firstBegun? (index : Nat) (tasks : List (Task R)) : Option (Nat × Task R) :=
  (tasks.zipIdx index).findSome? fun (task, i) =>
    if task.status = .planned then none else some (i, task)

/-- Give every task from an index on back to idle time with a change of charge. -/
def retractFrom (s : Schedule R) (index : Nat) (energy : Option R) :
    Except ScheduleError (Schedule R) := do
  let first ← s.get index
  match firstBegun? index (s.tasks.drop index) with
  | some (i, task) => .error (.invalidInsertion i (.unretractable task.status task.kind.label))
  | none =>
    let before := s.tasks.take index
    let docked := before.getLast?.bind fun task => task.kind.docksAt
    let idle : Task R := Task.stay first.source first.start s.finish
    let stay := { idle with kind := .stay docked, energy := energy }
    return ⟨before ++ [stay]⟩

/-- Turn a planned task into idle time over the same interval. A drive cannot be, since it moves the
vehicle. -/
def vacate (s : Schedule R) (index : Nat) : Except ScheduleError (Schedule R) := do
  let task ← s.get index
  if task.status ≠ .planned ∨ task.kind.isDrive then
    .error (.invalidInsertion index (.unvacatable task.status task.kind.label))
  else return ⟨s.tasks.set index { task with kind := .stay none }⟩

/-- Replace the change of charge of a task that is not over. -/
def overrideEnergy (s : Schedule R) (index : Nat) (kwh : R) :
    Except ScheduleError (Schedule R) := do
  let task ← s.get index
  if task.status = .performed then .error (.invalidInsertion index .energyIsHistory)
  else return ⟨s.tasks.set index (task.withEnergy kwh)⟩

end DemandTransport.Schedule
