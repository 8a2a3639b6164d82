import DemandTransport.Schedule.Task

/-!
# What can be wrong with a change of a schedule

Every refusal names its cause; the wording is a function of the cause.
-/

namespace DemandTransport

/-- Why a schedule cannot be changed as asked. -/
inductive EditFault where
  /-- The schedule has only so many tasks. -/
  | beyondEnd (tasks : Nat)
  /-- Work can only be put into idle time. -/
  | targetNotStay (label : String)
  /-- Idle time has been begun. -/
  | targetNotPlanned (status : TaskStatus)
  /-- The new task has been begun. -/
  | taskNotPlanned (status : TaskStatus)
  /-- The new task takes no time. -/
  | emptyTask (start finish : Time)
  /-- The new task does not begin with the idle time. -/
  | startsElsewhen (task stay : Time)
  /-- The new task ends after the idle time. -/
  | endsTooLate (task stay : Time)
  /-- The new task begins where the vehicle is not. -/
  | startsElsewhere (task vehicle : NodeId)
  /-- The new task takes the vehicle away from where the next task begins. -/
  | strandsNext (target next : NodeId)
  /-- Only idle time can be split. -/
  | unsplittable (label : String)
  /-- Idle time that is over cannot be split. -/
  | splitPerformed
  /-- Idle time cannot be split where it begins. -/
  | splitAtStart (t : Time)
  /-- The task that begins at a time is not idle time to come. -/
  | notPlannedStay (label : String) (t : Time)
  /-- A task that has been begun cannot be given back. -/
  | unretractable (status : TaskStatus) (label : String)
  /-- The task cannot be turned into idle time. -/
  | unvacatable (status : TaskStatus) (label : String)
  /-- The energy of a task that is over cannot be changed. -/
  | energyIsHistory
  deriving DecidableEq, Repr

/-- Which condition on schedules does not hold. -/
inductive ScheduleFault where
  /-- There is no task. -/
  | noTasks
  /-- A task takes no time. -/
  | emptyTask (index : Nat) (start finish : Time)
  /-- A task other than a drive moves the vehicle. -/
  | stationaryMoves (index : Nat) (source target : NodeId)
  /-- A task is further executed than the one before it. -/
  | statusOrder (index : Nat) (status previous : TaskStatus)
  /-- Two tasks are being executed. -/
  | secondStarted (index : Nat)
  /-- A task does not begin when the one before it ends. -/
  | gap (index : Nat)
  /-- A task does not begin where the one before it ends. -/
  | jump (index : Nat) (next target : NodeId)
  deriving DecidableEq, Repr

/-- What can go wrong with a schedule. -/
inductive ScheduleError where
  | invalidInsertion (index : Nat) (fault : EditFault)
  | invalidTransition (current wanted : TaskStatus)
  | outsideHorizon (t : Time)
  | emptyHorizon (start finish : Time)
  | noSuchTask (index : Nat)
  | invariant (fault : ScheduleFault)
  deriving DecidableEq, Repr

/-- The wording of a refused change. -/
def EditFault.message : EditFault → String
  | .beyondEnd tasks => "index beyond schedule of " ++ Decimal.ofNat tasks ++ " task(s)"
  | .targetNotStay label => "target is a " ++ label ++ " task, not a stay"
  | .targetNotPlanned status => "target stay is " ++ status.text
  | .taskNotPlanned status => "inserted task is " ++ status.text
  | .emptyTask start finish => "empty task " ++ start.text ++ ".." ++ finish.text
  | .startsElsewhen task stay =>
    "task begins at " ++ task.text ++ ", stay begins at " ++ stay.text
  | .endsTooLate task stay =>
    "task ends at " ++ task.text ++ ", after the stay ends at " ++ stay.text
  | .startsElsewhere task vehicle =>
    "task starts at " ++ task.text ++ ", vehicle is at " ++ vehicle.text
  | .strandsNext target next =>
    "task moves the vehicle to " ++ target.text ++ " before a task starting at " ++ next.text
  | .unsplittable label => "cannot split a " ++ label ++ " task"
  | .splitPerformed => "cannot split a performed stay"
  | .splitAtStart t => "split point " ++ t.text ++ " is the stay's own begin"
  | .notPlannedStay label t => label ++ " task at " ++ t.text ++ " is not a planned stay"
  | .unretractable status label => "cannot retract a " ++ status.text ++ " " ++ label ++ " task"
  | .unvacatable status label => "cannot vacate a " ++ status.text ++ " " ++ label ++ " task"
  | .energyIsHistory => "energy of a performed task is history"

/-- The wording of a broken condition. -/
def ScheduleFault.message : ScheduleFault → String
  | .noTasks => "schedule has no tasks"
  | .emptyTask i start finish =>
    "task " ++ Decimal.ofNat i ++ " is empty (" ++ start.text ++ ".." ++ finish.text ++ ")"
  | .stationaryMoves i source target =>
    "non-drive task " ++ Decimal.ofNat i ++ " moves from " ++ source.text ++ " to " ++ target.text
  | .statusOrder i status previous =>
    "task " ++ Decimal.ofNat i ++ " is " ++ status.text ++ " after a " ++ previous.text ++ " task"
  | .secondStarted i => "task " ++ Decimal.ofNat i ++ " is a second started task"
  | .gap i =>
    "gap or overlap between task " ++ Decimal.ofNat i ++ " and " ++ Decimal.ofNat (i + 1)
  | .jump i next target =>
    "task " ++ Decimal.ofNat (i + 1) ++ " starts at " ++ next.text ++ ", task " ++
      Decimal.ofNat i ++ " ends at " ++ target.text

/-- The wording of a schedule error. -/
def ScheduleError.message : ScheduleError → String
  | .invalidInsertion index fault =>
    "invalid insertion at index " ++ Decimal.ofNat index ++ ": " ++ fault.message
  | .invalidTransition current wanted =>
    "invalid status transition " ++ current.text ++ " -> " ++ wanted.text
  | .outsideHorizon t => "time " ++ t.text ++ " is outside the schedule horizon"
  | .emptyHorizon start finish => "empty horizon " ++ start.text ++ ".." ++ finish.text
  | .noSuchTask index => "no task at index " ++ Decimal.ofNat index
  | .invariant fault => "schedule invariant violated: " ++ fault.message

/-- The task at its next status, which has to be the one asked for. -/
def Task.advance {R : Type} (task : Task R) (status : TaskStatus) (t : Time) :
    Except ScheduleError (Task R) :=
  if task.status.next? = some status then .ok (task.advanced status t)
  else .error (.invalidTransition task.status status)

end DemandTransport
