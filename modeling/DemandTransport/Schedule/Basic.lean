import DemandTransport.Schedule.Error

/-!
# Schedules

The schedule of a vehicle is the list of its tasks, one directly after the other, from the begin of
its horizon to its end. Tasks that are over come first, then at most one that is being executed,
then the planned ones. `Schedule.fault?` finds the first of these conditions that does not hold.
-/

namespace DemandTransport

/-- The tasks of a vehicle in order. -/
structure Schedule (R : Type) where
  /-- The tasks. -/
  tasks : List (Task R)
  deriving BEq, DecidableEq, Repr

/-- How many of the first items satisfy a condition, found by halving. The items that satisfy it
should come first; `base` of them are known to, and `size` more may. -/
def bisectFrom {α : Type} (p : α → Bool) (items : List α) : Nat → Nat → Nat → Nat
  | 0, base, _ => base
  | rounds + 1, base, size =>
    if 1 < size then
      let middle := base + size / 2
      bisectFrom p items rounds (if items[middle]?.any p then middle else base) (size - size / 2)
    else if items[base]?.any p then base + 1 else base

/-- How many of the first items satisfy a condition, found by halving. -/
def bisect {α : Type} (p : α → Bool) (items : List α) : Nat :=
  bisectFrom p items (items.length + 1) 0 items.length

namespace Schedule

variable {R : Type}

/-- Idle time at a node over a horizon. -/
def idle (node : NodeId) (start finish : Time) : Except ScheduleError (Schedule R) :=
  if finish ≤ start then .error (.emptyHorizon start finish)
  else .ok ⟨[Task.stay node start finish]⟩

/-- Idle time at a node that draws energy. -/
def idleWithEnergy (node : NodeId) (start finish : Time) (kwh : R) :
    Except ScheduleError (Schedule R) :=
  (idle node start finish).map fun s => ⟨s.tasks.map fun task => task.withEnergy kwh⟩

/-- How many tasks there are. -/
def size (s : Schedule R) : Nat := s.tasks.length

/-- Whether there is no task. -/
def isEmpty (s : Schedule R) : Bool := s.tasks.isEmpty

/-- The task at an index. -/
def get (s : Schedule R) (index : Nat) : Except ScheduleError (Task R) :=
  match s.tasks[index]? with
  | some task => .ok task
  | none => .error (.noSuchTask index)

/-- When the first task begins. -/
def start (s : Schedule R) : Time := (s.tasks.head?.map Task.start).getD .zero

/-- When the last task ends. -/
def finish (s : Schedule R) : Time := (s.tasks.getLast?.map Task.finish).getD .zero

/-! ## Looking up tasks -/

/-- The index of the task to which an instant belongs. -/
def currentIndex (s : Schedule R) (t : Time) : Except ScheduleError Nat :=
  if t < s.start ∨ s.finish ≤ t then .error (.outsideHorizon t)
  else .ok (bisect (fun task => task.start ≤ t) s.tasks - 1)

/-- The task to which an instant belongs, with its index. -/
def current (s : Schedule R) (t : Time) : Except ScheduleError (Nat × Task R) := do
  let index ← s.currentIndex t
  let task ← s.get index
  return (index, task)

/-- The last task with its index, if it is idle time. -/
def trailingStay? (s : Schedule R) : Option (Nat × Task R) :=
  match s.tasks.getLast? with
  | some task => if task.isStay then some (s.tasks.length - 1, task) else none
  | none => none

/-- The last task apart from trailing idle time. -/
def lastCommitted? (s : Schedule R) : Option (Task R) :=
  match s.trailingStay? with
  | some _ => s.tasks.dropLast.getLast?
  | none => s.tasks.getLast?

/-- The tasks that are not over, with their indices. -/
def unperformed (s : Schedule R) : List (Nat × Task R) :=
  s.tasks.zipIdx.filterMap fun (task, index) =>
    if task.status = .performed then none else some (index, task)

/-! ## Validity -/

/-- What is wrong with a task at an index behind a task of some status. -/
def taskFault? (index : Nat) (previous : TaskStatus) (seenStarted : Bool) (task : Task R) :
    Option ScheduleFault :=
  if task.finish ≤ task.start then some (.emptyTask index task.start task.finish)
  else if !task.kind.isDrive ∧ task.source ≠ task.target then
    some (.stationaryMoves index task.source task.target)
  else if previous.rank < task.status.rank then some (.statusOrder index task.status previous)
  else if task.status = .started ∧ seenStarted then some (.secondStarted index)
  else none

/-- What is wrong with the seam between a task at an index and the one after it. -/
def seamFault? (index : Nat) (task next : Task R) : Option ScheduleFault :=
  if task.finish ≠ next.start then some (.gap index)
  else if task.target ≠ next.source then some (.jump index next.source task.target)
  else none

/-- The first fault in a list of tasks of which the first has the given index. -/
def firstFault? : Nat → TaskStatus → Bool → List (Task R) → Option ScheduleFault
  | _, _, _, [] => none
  | index, previous, seenStarted, task :: rest =>
    (taskFault? index previous seenStarted task).or <|
      (rest.head?.bind (seamFault? index task)).or <|
        firstFault? (index + 1) task.status (seenStarted || task.status = .started) rest

/-- The first condition on schedules that does not hold, if one does not. -/
def fault? (s : Schedule R) : Option ScheduleFault :=
  if s.tasks.isEmpty then some .noTasks else firstFault? 0 .performed false s.tasks

/-- Whether all conditions on schedules hold, or which one does not. -/
def validate (s : Schedule R) : Except ScheduleError Unit :=
  match s.fault? with
  | some fault => .error (.invariant fault)
  | none => .ok ()

end Schedule

end DemandTransport
