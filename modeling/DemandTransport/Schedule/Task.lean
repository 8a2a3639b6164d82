import DemandTransport.Network.Route

/-!
# Tasks

A task is one activity of a vehicle over the half-open interval from its begin to its end. Only a
drive moves the vehicle. A task's status moves forward one step at a time, and a task may carry the
change of the battery's charge that it brings about, negative for consumption.
-/

namespace DemandTransport

/-- How far a task has been executed. -/
inductive TaskStatus where
  | planned
  | started
  | performed
  deriving DecidableEq, Repr

namespace TaskStatus

/-- The name of a status. -/
def text : TaskStatus → String
  | planned => "Planned"
  | started => "Started"
  | performed => "Performed"

/-- The only status that this one may advance to. -/
def next? : TaskStatus → Option TaskStatus
  | planned => some started
  | started => some performed
  | performed => none

/-- How many advances lie behind a status. -/
def rank : TaskStatus → Nat
  | planned => 0
  | started => 1
  | performed => 2

end TaskStatus

/-- What a vehicle does during a task. -/
inductive TaskKind (R : Type) where
  /-- Nothing, possibly docked at a charger without charging. -/
  | stay (charger : Option ChargerId)
  /-- Travel along a route. -/
  | drive (route : Route R)
  /-- Let a passenger board. -/
  | pickup (request : RequestId)
  /-- Let a passenger alight. -/
  | dropoff (request : RequestId)
  /-- Charge at a charger. -/
  | charge (charger : ChargerId)
  deriving BEq, DecidableEq, Repr

namespace TaskKind

variable {R : Type}

/-- The word for a kind of task. -/
def label : TaskKind R → String
  | stay _ => "stay"
  | drive _ => "drive"
  | pickup _ => "pickup"
  | dropoff _ => "dropoff"
  | charge _ => "charge"

/-- Whether the vehicle does nothing. -/
def isStay : TaskKind R → Bool
  | stay _ => true
  | _ => false

/-- Whether the vehicle moves. -/
def isDrive : TaskKind R → Bool
  | drive _ => true
  | _ => false

/-- The request that a pickup or a dropoff serves. -/
def request? : TaskKind R → Option RequestId
  | pickup request => some request
  | dropoff request => some request
  | _ => none

/-- The charger to which a task is bound. -/
def charger? : TaskKind R → Option ChargerId
  | charge charger => some charger
  | stay charger => charger
  | _ => none

/-- The charger at which the vehicle is left parked, which is that of a charging task. -/
def docksAt : TaskKind R → Option ChargerId
  | charge charger => some charger
  | _ => none

end TaskKind

/-- An activity of a vehicle over an interval of time. -/
structure Task (R : Type) where
  /-- What the vehicle does. -/
  kind : TaskKind R
  /-- When the task begins. -/
  start : Time
  /-- When the task ends; this instant no longer belongs to it. -/
  finish : Time
  /-- Where the vehicle is at the begin. -/
  source : NodeId
  /-- Where the vehicle is at the end. -/
  target : NodeId
  /-- How far the task has been executed. -/
  status : TaskStatus := .planned
  /-- Change of the battery's charge in kWh, for tasks that account for it. -/
  energy : Option R := none
  /-- When execution began, once it has. -/
  startedAt : Option Time := none
  /-- When execution ended, once it has. -/
  performedAt : Option Time := none
  deriving BEq, DecidableEq, Repr

namespace Task

variable {R : Type}

/-- Idle time at a node. -/
def stay (node : NodeId) (start finish : Time) : Task R :=
  { kind := .stay none, start := start, finish := finish, source := node, target := node }

/-- A drive over the time and between the nodes of its route. -/
def drive (route : Route R) : Task R :=
  { kind := .drive route, start := route.departure, finish := route.arrival
    source := route.source, target := route.target }

/-- A passenger boarding at a node. -/
def pickup (request : RequestId) (node : NodeId) (start finish : Time) : Task R :=
  { kind := .pickup request, start := start, finish := finish, source := node, target := node }

/-- A passenger alighting at a node. -/
def dropoff (request : RequestId) (node : NodeId) (start finish : Time) : Task R :=
  { kind := .dropoff request, start := start, finish := finish, source := node, target := node }

/-- Charging at a node. -/
def charge (charger : ChargerId) (node : NodeId) (start finish : Time) : Task R :=
  { kind := .charge charger, start := start, finish := finish, source := node, target := node }

/-- The task with a change of charge. -/
def withEnergy (task : Task R) (kwh : R) : Task R := { task with energy := some kwh }

/-- Whether the task accounts for energy. -/
def isEnergyAware (task : Task R) : Bool := task.energy.isSome

/-- How long the task takes, in seconds. -/
def duration (task : Task R) : Nat := task.finish.since task.start

/-- Whether an instant belongs to the task. -/
def Covers (task : Task R) (t : Time) : Prop := task.start ≤ t ∧ t < task.finish

instance (task : Task R) (t : Time) : Decidable (task.Covers t) :=
  inferInstanceAs (Decidable (_ ∧ _))

/-- Whether the task is idle time. -/
def isStay (task : Task R) : Bool := task.kind.isStay

/-- The task one status further, at the time at which it was executed. -/
def advanced (task : Task R) (status : TaskStatus) (t : Time) : Task R :=
  match status with
  | .planned => { task with status := .planned }
  | .started => { task with status := .started, startedAt := some t }
  | .performed => { task with status := .performed, performedAt := some t }

/-- The part of a change of charge that falls to some seconds out of all. -/
def energyShare [Scalar R] (kwh : R) (secs total : Nat) : R :=
  if total = 0 then 0 else kwh * Scalar.ofNat secs / Scalar.ofNat total

/-- The task up to an instant. -/
def headUntil [Scalar R] (task : Task R) (t : Time) : Task R :=
  { task with
    finish := t
    energy := task.energy.map fun kwh =>
      kwh * (Scalar.ofNat (t.since task.start) / Scalar.ofNat task.duration) }

/-- The task from an instant on, as a planned task with the energy that the part before leaves. -/
def tailFrom [Scalar R] (task : Task R) (t : Time) : Task R :=
  { kind := task.kind, start := t, finish := task.finish
    source := task.target, target := task.target
    energy := task.energy.map fun kwh =>
      kwh - kwh * (Scalar.ofNat (t.since task.start) / Scalar.ofNat task.duration) }

/-- The task without its head, its energy cut down in proportion. -/
def trimHead [Scalar R] (task : Task R) (start : Time) : Task R :=
  { task with
    start := start
    energy := task.energy.map fun kwh =>
      energyShare kwh (task.finish.since start) task.duration }

end Task

end DemandTransport
