import Mathlib.Algebra.Order.Ring.Rat
import Mathlib.Tactic.Linarith
import DemandTransport.Dispatch.Projection
import DemandTransport.Proofs.Dispatch.Footprint

/-!
# The energy outlook of a vehicle

Over the rational numbers a vehicle's charge can be followed exactly: the energies of the tasks that
are not over are added to the battery one after the other, each time up to the capacity. A vehicle
is feasible when the charge never falls below nothing by more than the tolerance. More charge at the
begin never hurts, and whether a list of energies is endured can be told part by part. The
projection that dispatching looks at is this outlook, for the schedule with the new tasks in it.
-/

namespace DemandTransport

/-! ## Following a charge -/

namespace Battery

/-- The charge after some changes, each made up to the capacity. -/
def chargeAfter (capacity : Rat) (charge : Rat) (kwhs : List Rat) : Rat :=
  kwhs.foldl (fun charge kwh => min (charge + kwh) capacity) charge

/-- The charge never falls below nothing, up to the tolerance, while some changes are made one after
the other, each up to the capacity. -/
def Endures (capacity : Rat) : Rat → List Rat → Prop
  | _, [] => True
  | charge, kwh :: rest =>
    -Projection.tolerance ≤ min (charge + kwh) capacity ∧
      Endures capacity (min (charge + kwh) capacity) rest

instance Endures.decidable (capacity : Rat) :
    (charge : Rat) → (kwhs : List Rat) → Decidable (Endures capacity charge kwhs)
  | _, [] => .isTrue trivial
  | charge, kwh :: rest =>
    have := decidable capacity (min (charge + kwh) capacity) rest
    inferInstanceAs (Decidable (_ ∧ _))

variable {capacity charge charge' kwh : Rat} {kwhs : List Rat}

@[simp] theorem chargeAfter_nil : chargeAfter capacity charge [] = charge := rfl

@[simp] theorem chargeAfter_cons : chargeAfter capacity charge (kwh :: kwhs) =
    chargeAfter capacity (min (charge + kwh) capacity) kwhs := rfl

@[simp] theorem chargeAfter_append (a b : List Rat) : chargeAfter capacity charge (a ++ b) =
    chargeAfter capacity (chargeAfter capacity charge a) b :=
  List.foldl_append

/-- The charge stays within the capacity. -/
theorem chargeAfter_le (h : charge ≤ capacity) (kwhs : List Rat) :
    chargeAfter capacity charge kwhs ≤ capacity := by
  induction kwhs generalizing charge with
  | nil => exact h
  | cons kwh rest ih => exact ih (min_le_right _ _)

/-- What does not fit into the battery is lost, and nothing else is gained. -/
theorem chargeAfter_le_sum (kwhs : List Rat) :
    chargeAfter capacity charge kwhs ≤ charge + kwhs.sum := by
  induction kwhs generalizing charge with
  | nil => simp
  | cons kwh rest ih =>
    have hrest := @ih (min (charge + kwh) capacity)
    have hfirst : min (charge + kwh) capacity ≤ charge + kwh := min_le_left _ _
    rw [chargeAfter_cons, List.sum_cons]
    linarith

@[simp] theorem endures_nil : Endures capacity charge [] := trivial

@[simp] theorem endures_cons : Endures capacity charge (kwh :: kwhs) ↔
    -Projection.tolerance ≤ min (charge + kwh) capacity ∧
      Endures capacity (min (charge + kwh) capacity) kwhs := Iff.rfl

/-- Changes are endured part by part. -/
theorem endures_append {a b : List Rat} : Endures capacity charge (a ++ b) ↔
    Endures capacity charge a ∧ Endures capacity (chargeAfter capacity charge a) b := by
  induction a generalizing charge with
  | nil => simp
  | cons kwh rest ih => simp only [List.cons_append, endures_cons, chargeAfter_cons, ih, and_assoc]

/-- More charge at the begin never hurts. -/
theorem Endures.mono (h : Endures capacity charge kwhs) (hle : charge ≤ charge') :
    Endures capacity charge' kwhs := by
  induction kwhs generalizing charge charge' with
  | nil => trivial
  | cons kwh rest ih =>
    have hmin : min (charge + kwh) capacity ≤ min (charge' + kwh) capacity :=
      min_le_min_right _ (by linarith)
    exact ⟨h.1.trans hmin, ih h.2 hmin⟩

/-- Where a change is endured that changes nothing, it may be left out. -/
theorem Endures.skip_zero {a b : List Rat} (hcharge : charge ≤ capacity)
    (h : Endures capacity charge (a ++ 0 :: b)) : Endures capacity charge (a ++ b) := by
  rw [endures_append] at h ⊢
  refine ⟨h.1, ?_⟩
  have hrest := h.2.2
  rwa [add_zero, min_eq_left (chargeAfter_le hcharge a)] at hrest

/-- What changes taken one by one leave to endure, a single change endures that is at least as large
as all of them together. -/
theorem Endures.single (h : Endures capacity charge kwhs) (hne : kwhs ≠ [])
    (hsum : kwhs.sum ≤ kwh) : Endures capacity charge [kwh] := by
  obtain ⟨front, last, rfl⟩ : ∃ front last, kwhs = front ++ [last] :=
    ⟨_, _, (List.dropLast_append_getLast hne).symm⟩
  have hlast := (endures_append.mp h).2.1
  have hle : chargeAfter capacity charge (front ++ [last]) ≤ charge + (front ++ [last]).sum :=
    chargeAfter_le_sum _
  rw [chargeAfter_append] at hle
  have hcapacity := hlast.trans (min_le_right _ _)
  refine ⟨le_min ?_ hcapacity, trivial⟩
  exact hlast.trans (hle.trans (by linarith))

/-- A battery holds no less than a charge that is followed up to the capacity, and no more than it
can. -/
theorem apply_charge (battery : Battery Rat) (kwh : Rat) :
    min (battery.charge + kwh) battery.capacity ≤ (battery.apply kwh).2.charge ∧
      (battery.apply kwh).2.charge ≤ battery.capacity := by
  have hclamp : (battery.apply kwh).2.charge =
      Scalar.clamp (battery.charge + kwh) 0 battery.capacity := rfl
  rw [hclamp]
  generalize battery.charge + kwh = x
  unfold Scalar.clamp
  dsimp only
  split_ifs with hlow hfull hfull
  · exact ⟨min_le_right _ _, le_refl _⟩
  · exact ⟨(min_le_left _ _).trans (le_of_lt hlow), not_lt.mp hfull⟩
  · exact ⟨min_le_right _ _, le_refl _⟩
  · exact ⟨min_le_left _ _, not_lt.mp hfull⟩

/-- A battery holds between nothing and its capacity. -/
def InRange (battery : Battery Rat) : Prop :=
  0 ≤ battery.charge ∧ battery.charge ≤ battery.capacity

/-- It does so whatever is added or drawn. -/
theorem InRange.apply {battery : Battery Rat} (h : battery.InRange) (kwh : Rat) :
    (battery.apply kwh).2.InRange := by
  refine ⟨?_, (battery.apply_charge kwh).2⟩
  have hcapacity : 0 ≤ battery.capacity := h.1.trans h.2
  change 0 ≤ Scalar.clamp (battery.charge + kwh) 0 battery.capacity
  generalize battery.charge + kwh = x
  unfold Scalar.clamp
  dsimp only
  split_ifs with hlow hfull hfull
  · exact hcapacity
  · exact le_refl _
  · exact hcapacity
  · exact not_lt.mp hlow

end Battery

/-! ## What tasks do to a charge -/

/-- What a task will do to the charge, if it is not over. -/
def Task.pendingEnergy? {R : Type} [Scalar R] (task : Task R) : Option R :=
  if task.status = .performed then none else some task.energyOrZero

/-- What the tasks that are not over will do to the charge, one after the other. -/
def Schedule.pendingEnergy {R : Type} [Scalar R] (s : Schedule R) : List R :=
  s.unperformed.map fun entry => entry.2.energyOrZero

/-- A vehicle's charge, followed through everything that it still has to do, never falls below
nothing, up to the tolerance. There is nothing to follow without a battery. -/
def Vehicle.Feasible (v : Vehicle Rat) : Prop :=
  ∀ energy ∈ v.energy,
    Battery.Endures energy.battery.capacity energy.battery.charge v.schedule.pendingEnergy

/-- The battery of a vehicle, if it has one, holds no more than it can. -/
def Vehicle.WithinCapacity (v : Vehicle Rat) : Prop :=
  ∀ energy ∈ v.energy, energy.battery.charge ≤ energy.battery.capacity

instance (v : Vehicle Rat) : Decidable v.Feasible :=
  match h : v.energy with
  | none => .isTrue (by simp [Vehicle.Feasible, h])
  | some energy =>
    decidable_of_iff (Battery.Endures energy.battery.capacity energy.battery.charge
      v.schedule.pendingEnergy) (by simp [Vehicle.Feasible, h])

namespace Schedule

variable {R : Type} [Scalar R]

theorem pendingEnergy_eq (s : Schedule R) :
    s.pendingEnergy = s.tasks.filterMap Task.pendingEnergy? := by
  have hall := unperformed_filterMap (fun task => some task.energyOrZero) s
  rw [pendingEnergy, ← List.filterMap_eq_map]
  exact hall

@[simp] theorem pendingEnergy_append (a b : List (Task R)) :
    pendingEnergy ⟨a ++ b⟩ = pendingEnergy ⟨a⟩ ++ pendingEnergy ⟨b⟩ := by
  simp only [pendingEnergy_eq, List.filterMap_append]

theorem pendingEnergy_cons (task : Task R) (rest : List (Task R)) :
    pendingEnergy ⟨task :: rest⟩ = pendingEnergy ⟨[task]⟩ ++ pendingEnergy ⟨rest⟩ :=
  pendingEnergy_append [task] rest

@[simp] theorem pendingEnergy_nil : pendingEnergy (R := R) ⟨[]⟩ = [] := rfl

theorem pendingEnergy_of_open {task : Task R} (h : task.status ≠ .performed) :
    pendingEnergy ⟨[task]⟩ = [task.energyOrZero] := by
  simp [pendingEnergy_eq, Task.pendingEnergy?, h]

theorem pendingEnergy_of_performed {tasks : List (Task R)}
    (h : ∀ task ∈ tasks, task.status = .performed) : pendingEnergy ⟨tasks⟩ = [] := by
  rw [pendingEnergy_eq]
  exact List.filterMap_eq_nil_iff.mpr fun task htask => if_pos (h task htask)

theorem pendingEnergy_of_planned {tasks : List (Task R)}
    (h : ∀ task ∈ tasks, task.status = .planned) :
    pendingEnergy ⟨tasks⟩ = tasks.map Task.energyOrZero := by
  induction tasks with
  | nil => rfl
  | cons task rest ih =>
    have hopen : task.status ≠ .performed := by simp [h task List.mem_cons_self]
    rw [pendingEnergy_cons, pendingEnergy_of_open hopen,
      ih fun next hnext => h next (List.mem_cons_of_mem _ hnext)]
    rfl

end Schedule

/-! ## The projection -/

namespace Trajectory

theorem lesser_eq_min (a b : Rat) : Scalar.lesser a b = min a b := by
  unfold Scalar.lesser
  rw [min_def]
  split
  · rfl
  · simp

variable {capacity : Rat} {t : Trajectory Rat}

/-- The least charge is not too low exactly when all changes are endured. -/
theorem le_steps_least {low : Rat} (hlow : low = -Projection.tolerance) (kwhs : List Rat) :
    low ≤ (t.steps capacity kwhs).least ↔
      low ≤ t.least ∧ Battery.Endures capacity t.charge kwhs := by
  subst hlow
  induction kwhs generalizing t with
  | nil => simp [steps]
  | cons kwh rest ih =>
    have hstep : (t.step capacity kwh).charge = min (t.charge + kwh) capacity := lesser_eq_min _ _
    have hleast : (t.step capacity kwh).least = min t.least (min (t.charge + kwh) capacity) := by
      rw [← hstep]
      exact lesser_eq_min _ _
    have hrest := @ih (t.step capacity kwh)
    rw [hleast, hstep, le_min_iff, and_assoc] at hrest
    exact hrest

end Trajectory

/-- What is pending before the last task are the tasks before it that are not over. -/
theorem Schedule.takeWhile_unperformed {R : Type} [Scalar R] (before : List (Task R))
    (last : Task R) :
    ((unperformed ⟨before ++ [last]⟩).takeWhile fun entry => entry.1 ≠ before.length).map
      (fun entry => entry.2.energyOrZero) = pendingEnergy ⟨before⟩ := by
  have hearlier : ∀ entry ∈ unperformed ⟨before⟩, entry.1 ≠ before.length := by
    intro entry hentry
    obtain ⟨⟨task, index⟩, hmem, hsome⟩ := List.mem_filterMap.mp hentry
    have hindex := List.snd_lt_of_mem_zipIdx hmem
    simp only [Option.ite_none_left_eq_some, Option.some.injEq] at hsome
    simp only [← hsome.2] at hindex ⊢
    omega
  have hsplit : ∃ rest, unperformed ⟨before ++ [last]⟩ = unperformed ⟨before⟩ ++ rest ∧
      ∀ entry ∈ rest, entry.1 = before.length := by
    refine ⟨_, by simp only [unperformed, List.zipIdx_append, List.filterMap_append]; rfl, ?_⟩
    intro entry hentry
    obtain ⟨⟨task, index⟩, hmem, hsome⟩ := List.mem_filterMap.mp hentry
    simp only [Option.ite_none_left_eq_some, Option.some.injEq] at hsome
    simpa [← hsome.2] using (Prod.mk.inj (List.mem_singleton.mp hmem)).2
  obtain ⟨rest, hsplit, hrest⟩ := hsplit
  have hstop : rest.takeWhile (fun entry => decide (entry.1 ≠ before.length)) = [] := by
    cases rest with
    | nil => rfl
    | cons entry rest => simp [hrest entry List.mem_cons_self]
  rw [hsplit, List.takeWhile_append_of_pos (by simpa using hearlier), hstop, List.append_nil]
  rfl

/-- The projection of some tasks follows the charge through everything that is pending, the idle
time until they begin, the tasks, and the idle time behind them. -/
theorem Vehicle.project?_eq {v : Vehicle Rat} {energy : VehicleEnergy Rat}
    {before tasks : List (Task Rat)} {stay : Task Rat} {depart : Time}
    (henergy : v.energy = some energy) (htasks : v.schedule.tasks = before ++ [stay])
    (hidle : stay.isStay = true) :
    v.project? depart tasks =
      let start : Trajectory Rat := ⟨energy.battery.charge, energy.battery.charge⟩
      let worked := start.steps energy.battery.capacity (Schedule.pendingEnergy ⟨before⟩ ++
        stay.shareBetween stay.start depart :: tasks.map Task.energyOrZero)
      some ⟨worked.charge, (worked.step energy.battery.capacity (stay.shareBetween
        ((tasks.getLast?.map Task.finish).getD depart) stay.finish)).least⟩ := by
  have htrailing : v.schedule.trailingStay? = some (before.length, stay) := by
    simp [Schedule.trailingStay?, htasks, hidle]
  have hbefore := Schedule.takeWhile_unperformed before stay
  rw [← Schedule.eq_of_tasks htasks] at hbefore
  unfold project?
  simp only [battery?, henergy, Option.map_some, htrailing, hbefore, Trajectory.steps,
    List.foldl_append, List.foldl_cons]

/-- The projection of some tasks is feasible only if the charge endures everything that is pending,
the idle time until they begin, the tasks, and the idle time behind them. -/
theorem Vehicle.endures_of_project? {v : Vehicle Rat} {energy : VehicleEnergy Rat}
    {before tasks : List (Task Rat)} {stay : Task Rat} {depart : Time}
    (henergy : v.energy = some energy) (htasks : v.schedule.tasks = before ++ [stay])
    (hidle : stay.isStay = true) :
    ∃ projection, v.project? depart tasks = some projection ∧
      (projection.isFeasible = true → Battery.Endures energy.battery.capacity energy.battery.charge
        (Schedule.pendingEnergy ⟨before⟩ ++ stay.shareBetween stay.start depart ::
          (tasks.map Task.energyOrZero ++ [stay.shareBetween
            ((tasks.getLast?.map Task.finish).getD depart) stay.finish]))) := by
  refine ⟨_, project?_eq henergy htasks hidle, fun hfeasible => ?_⟩
  have hleast := of_decide_eq_true hfeasible
  dsimp only at hleast
  generalize hresume : (tasks.getLast?.map Task.finish).getD depart = resume at hleast
  have hall := (@Trajectory.le_steps_least energy.battery.capacity
    ⟨energy.battery.charge, energy.battery.charge⟩ _ rfl (Schedule.pendingEnergy ⟨before⟩ ++
      stay.shareBetween stay.start depart :: (tasks.map Task.energyOrZero ++
        [stay.shareBetween resume stay.finish]))).mp
  simp only [Trajectory.steps, List.foldl_append, List.foldl_cons, List.foldl_nil] at hall hleast
  exact (hall hleast).2

end DemandTransport
