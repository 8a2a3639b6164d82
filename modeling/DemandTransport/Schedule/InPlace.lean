import DemandTransport.Action
import DemandTransport.Schedule.Edit

/-!
# Changing schedules in place

A vehicle's schedule is changed where it is kept: tasks are looked up, what cannot be done is
refused and then task after task is written. Each program here comes to the change of the same name,
which gives a new schedule or none; that a refused one has written nothing is a fact about the order
of its steps.
-/

namespace DemandTransport.Schedule.InPlace

variable {R : Type}

/-! ## Single writes -/

/-- Write a task to an index. -/
def write (index : Nat) (task : Task R) : Action ScheduleError (Schedule R) Unit :=
  modify fun s => ⟨s.tasks.set index task⟩

/-- Put a task before the one at an index, which moves up with all behind it. -/
def place (index : Nat) (task : Task R) : Action ScheduleError (Schedule R) Unit :=
  modify fun s => ⟨s.tasks.insertIdx index task⟩

/-- Drop the tasks from an index on. -/
def truncate (index : Nat) : Action ScheduleError (Schedule R) Unit :=
  modify fun s => ⟨s.tasks.take index⟩

/-- Put a task behind the last one. -/
def append (task : Task R) : Action ScheduleError (Schedule R) Unit :=
  modify fun s => ⟨s.tasks ++ [task]⟩

/-! ## Inserting work -/

variable [Scalar R]

/-- Carve a task from the head of the planned idle time at an index. Idle time that is left is cut
where it stands, and the task is put before it. The index at which the task stands is given. -/
def insert (task : Task R) (index : Nat) : Action ScheduleError (Schedule R) Nat := do
  let s ← getThe (Schedule R)
  match s.tasks[index]? with
  | none => throw (.invalidInsertion index (.beyondEnd s.tasks.length))
  | some stay =>
    match s.insertFault? index stay task with
    | some fault => throw (.invalidInsertion index fault)
    | none =>
      if task.finish = stay.finish then write index task
      else
        let rest := stay.trimHead task.finish
        write index
          { rest with
            kind := .stay task.kind.docksAt, source := task.target, target := task.target }
        place index task
      return index

/-- Split the idle time to which an instant belongs. The indices of both parts are given. -/
def splitStayAt (t : Time) : Action ScheduleError (Schedule R) (Nat × Nat) := do
  let (index, stay) ← Action.ask fun s => s.current t
  match splitFault? stay t with
  | some fault => throw (.invalidInsertion index fault)
  | none =>
    write index (stay.headUntil t)
    place (index + 1) (stay.tailFrom t)
    return (index, index + 1)

/-- The index of planned idle time that begins at an instant, made by splitting if need be. -/
def insertionPoint (t : Time) : Action ScheduleError (Schedule R) Nat := do
  let (index, task) ← Action.ask fun s => s.current t
  if task.start = t then
    if task.isStay ∧ task.status = .planned then return index
    else throw (.invalidInsertion index (.notPlannedStay task.kind.label t))
  else
    let (_, after) ← splitStayAt t
    return after

/-! ## Executing tasks -/

/-- Advance the task at an index, which is given as it then is. -/
def advance (index : Nat) (status : TaskStatus) (t : Time) :
    Action ScheduleError (Schedule R) (Task R) := do
  let task ← Action.ask fun s => s.get index
  let s ← getThe (Schedule R)
  match s.blocking? index status with
  | some previous => throw (.invalidTransition previous .started)
  | none =>
    let task ← Action.ask fun _ => task.advance status t
    write index task
    return task

/-! ## Taking work back -/

/-- Give every task from an index on back to idle time with a change of charge. -/
def retractFrom (index : Nat) (energy : Option R) : Action ScheduleError (Schedule R) Unit := do
  let first ← Action.ask fun s => s.get index
  let s ← getThe (Schedule R)
  match firstBegun? index (s.tasks.drop index) with
  | some (i, task) => throw (.invalidInsertion i (.unretractable task.status task.kind.label))
  | none =>
    let docked := (s.tasks.take index).getLast?.bind fun task => task.kind.docksAt
    let idle : Task R := Task.stay first.source first.start s.finish
    truncate index
    append { idle with kind := .stay docked, energy := energy }

/-- Turn a planned task into idle time over the same interval. -/
def vacate (index : Nat) : Action ScheduleError (Schedule R) Unit := do
  let task ← Action.ask fun s => s.get index
  if task.status ≠ .planned ∨ task.kind.isDrive then
    throw (.invalidInsertion index (.unvacatable task.status task.kind.label))
  else write index { task with kind := .stay none }

/-- Replace the change of charge of a task that is not over. -/
def overrideEnergy (index : Nat) (kwh : R) : Action ScheduleError (Schedule R) Unit := do
  let task ← Action.ask fun s => s.get index
  if task.status = .performed then throw (.invalidInsertion index .energyIsHistory)
  else write index (task.withEnergy kwh)

end DemandTransport.Schedule.InPlace
