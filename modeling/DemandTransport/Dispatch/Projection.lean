import DemandTransport.Fleet.Vehicle

/-!
# Looking ahead in energy

Before work is given to an electric vehicle, its charge is followed through everything that the
vehicle still has to do. Charging stops at the capacity, as in the battery; consumption does not
stop at nothing, so a plan that cannot be carried out shows a negative charge.
-/

namespace DemandTransport

variable {R : Type} [Scalar R]

/-- The change of charge that a new task brings about. Charging is not priced here, since it depends
on the charger. -/
def EnergyProfile.taskEnergy (profile : EnergyProfile R) (task : Task R) : R :=
  match task.kind with
  | .drive route => profile.driveEnergy route.length
  | _ => profile.idleEnergy task.duration

/-- A charge followed over time, and the least that it has been. -/
structure Trajectory (R : Type) where
  /-- The charge. -/
  charge : R
  /-- The least charge so far. -/
  least : R
  deriving DecidableEq, Repr

namespace Trajectory

/-- Change the charge, up to a capacity. -/
def step (capacity : R) (t : Trajectory R) (kwh : R) : Trajectory R :=
  let charge := Scalar.lesser (t.charge + kwh) capacity
  ⟨charge, Scalar.lesser t.least charge⟩

/-- Change the charge several times. -/
def steps (capacity : R) (t : Trajectory R) (kwhs : List R) : Trajectory R :=
  kwhs.foldl (step capacity) t

end Trajectory

/-- What a plan does to a battery. -/
structure Projection (R : Type) where
  /-- The charge when the plan has been carried out. -/
  afterTasks : R
  /-- The least charge anywhere along the schedule. -/
  least : R
  deriving DecidableEq, Repr

namespace Projection

/-- A lack of charge that counts as none, in kWh. -/
def tolerance : R := 1e-9

/-- Whether the battery never runs empty. -/
def isFeasible (projection : Projection R) : Bool := -tolerance ≤ projection.least

end Projection

/-- The change of charge of a task, none if it does not account for energy. -/
def Task.energyOrZero (task : Task R) : R := task.energy.getD 0

/-- The change of charge during a part of some idle time. -/
def Task.shareBetween (stay : Task R) (start finish : Time) : R :=
  match stay.energy with
  | some kwh => Task.energyShare kwh (finish.since start) stay.duration
  | none => 0

/-- Follow the charge of a vehicle through its tasks that are not over, its trailing idle time until
`depart`, some new tasks, and the rest of the idle time behind them. There is nothing to follow
without a battery or without trailing idle time. -/
def Vehicle.project? (vehicle : Vehicle R) (depart : Time) (tasks : List (Task R)) :
    Option (Projection R) :=
  match vehicle.battery?, vehicle.schedule.trailingStay? with
  | some battery, some (last, stay) =>
    let before := (vehicle.schedule.unperformed.takeWhile fun entry => entry.1 ≠ last).map
      fun entry => entry.2.energyOrZero
    let resume := (tasks.getLast?.map Task.finish).getD depart
    let start : Trajectory R := ⟨battery.charge, battery.charge⟩
    let waited := (start.steps battery.capacity before).step battery.capacity
      (stay.shareBetween stay.start depart)
    let worked := waited.steps battery.capacity (tasks.map Task.energyOrZero)
    let idled := worked.step battery.capacity (stay.shareBetween resume stay.finish)
    some ⟨worked.charge, idled.least⟩
  | _, _ => none

end DemandTransport
