import DemandTransport.Proofs.Energy.Outlook
import DemandTransport.Proofs.Execution.Charging

/-!
# Carrying out what can be powered

A task that starts changes neither the charge nor what is still to come. A task that ends hands its
energy over to the battery, which holds at least what the outlook has foreseen: consumption stops at
nothing, and charging at the capacity. So a beat keeps a vehicle feasible, unless it gives up the
energy of a charging session for lack of a plug.
-/

namespace DemandTransport

/-- What the end of a task does to a battery. -/
theorem Vehicle.applyEnergy_charge {v : Vehicle Rat} {energy : VehicleEnergy Rat}
    (henergy : v.energy = some energy) (hcapacity : energy.battery.charge ≤ energy.battery.capacity)
    (task : Task Rat) :
    ∃ energy', (v.applyEnergy task).2.energy = some energy' ∧
      energy'.battery.capacity = energy.battery.capacity ∧
      min (energy.battery.charge + task.energyOrZero) energy.battery.capacity ≤
        energy'.battery.charge ∧
      energy'.battery.charge ≤ energy.battery.capacity := by
  unfold applyEnergy Task.energyOrZero
  cases hkwh : task.energy with
  | none =>
    refine ⟨energy, henergy, rfl, ?_, hcapacity⟩
    rw [Option.getD_none, add_zero]
    exact min_le_left _ _
  | some kwh =>
    rw [henergy]
    exact ⟨_, rfl, rfl, energy.battery.apply_charge kwh⟩

theorem Vehicle.applyEnergy_none {v : Vehicle Rat} {task : Task Rat} (h : v.energy = none) :
    (v.applyEnergy task).2.energy = none := by
  unfold applyEnergy
  rw [h]
  cases task.energy <;> exact h

namespace Beat

variable {now : Time} {v v' : Vehicle Rat} {pool pool' : ChargerPool Rat} {event : TaskEvent Rat}

/-- A beat leaves every battery with no more than it can hold. -/
theorem withinCapacity (h : Beat now v pool event v' pool') (hv : v.WithinCapacity) :
    v'.WithinCapacity := by
  obtain ⟨before, after, task, task', -, -, -, -, -, -, -, hpowering, -⟩ := h
  intro energy henergy
  generalize event.phase = phase at hpowering
  generalize event.activity = activity at hpowering
  cases hpowering with
  | kept hbattery _ => exact hv energy (hbattery ▸ henergy)
  | forfeited hbattery => exact hv energy (hbattery ▸ henergy)
  | used hbattery _ =>
    rw [hbattery] at henergy
    cases hold : v.energy with
    | none =>
      rw [Vehicle.applyEnergy_none hold] at henergy
      cases henergy
    | some old =>
      obtain ⟨energy', hnew, hcapacity, -, hle⟩ :=
        Vehicle.applyEnergy_charge hold (hv old hold) task
      rw [hnew] at henergy
      cases henergy
      rwa [hcapacity]

/-- What is pending before a beat is the energy of its task and what is pending behind it. -/
theorem feasible (h : Beat now v pool event v' pool') (hplugged : event.unplugged = false)
    (hcapacity : v.WithinCapacity) (hv : v.Feasible) : v'.Feasible := by
  obtain ⟨before, after, task, task', htasks, hdone, hbecomes, -, hvehicle, -, -, hpowering, -⟩ := h
  have hopen := hbecomes.not_over
  have hpending (task : Task Rat) : Schedule.pendingEnergy ⟨before ++ task :: after⟩ =
      Schedule.pendingEnergy ⟨[task]⟩ ++ Schedule.pendingEnergy ⟨after⟩ := by
    rw [Schedule.pendingEnergy_append, Schedule.pendingEnergy_of_performed hdone,
      List.nil_append, Schedule.pendingEnergy_cons]
  have hstatus := hbecomes.status
  intro energy henergy
  rw [Schedule.eq_of_tasks hvehicle.tasks, hpending]
  generalize hphase : event.phase = phase at hpowering hstatus
  generalize hactivity : event.activity = activity at hpowering
  cases hpowering with
  | kept hbattery haccount =>
    have hall := hv energy (hbattery ▸ henergy)
    have hstarted : task'.status ≠ .performed := by simp [hstatus, TaskPhase.status]
    rw [Schedule.eq_of_tasks htasks, hpending, Schedule.pendingEnergy_of_open hopen] at hall
    rw [Schedule.pendingEnergy_of_open hstarted]
    unfold Task.energyOrZero at *
    rwa [haccount]
  | forfeited hbattery => simp [TaskEvent.unplugged, hactivity] at hplugged
  | used hbattery _ =>
    have hover : Schedule.pendingEnergy ⟨[task']⟩ = [] :=
      Schedule.pendingEnergy_of_performed (by simpa [TaskPhase.status] using hstatus)
    rw [hover, List.nil_append]
    cases hold : v.energy with
    | none =>
      rw [henergy, Vehicle.applyEnergy_none hold] at hbattery
      cases hbattery
    | some old =>
      obtain ⟨energy', hnew, hsame, hleast, -⟩ :=
        Vehicle.applyEnergy_charge hold (hcapacity old hold) task
      rw [henergy, hnew] at hbattery
      cases hbattery
      have hall := hv old hold
      rw [Schedule.eq_of_tasks htasks, hpending, Schedule.pendingEnergy_of_open hopen] at hall
      rw [hsame]
      exact hall.2.mono hleast

end Beat

/-! ## All vehicles -/

/-- No battery holds more than it can, and some vehicles are feasible. -/
structure Powered (chosen : List VehicleId) (vehicles : List (Vehicle Rat)) : Prop where
  capacity : ∀ v ∈ vehicles, v.WithinCapacity
  feasible : ∀ id ∈ chosen, ∃ v ∈ vehicles, v.id = id ∧ v.Feasible

namespace Powered

variable {chosen : List VehicleId} {a b : List (Vehicle Rat)} {v v' : Vehicle Rat}

/-- One vehicle is replaced by another one of its number, which is feasible if the old one was. -/
theorem replace (h : Powered chosen (a ++ v :: b)) (hid : v'.id = v.id)
    (hcapacity : v'.WithinCapacity) (hfeasible : v.Feasible → v'.Feasible) :
    Powered chosen (a ++ v' :: b) := by
  refine ⟨forall_mem_replace h.capacity hcapacity, fun id hchosen => ?_⟩
  obtain ⟨w, hw, hwid, hwfeasible⟩ := h.feasible id hchosen
  by_cases hsame : w = v
  · subst hsame
    exact ⟨v', by simp, hid.trans hwid, hfeasible hwfeasible⟩
  · refine ⟨w, ?_, hwid, hwfeasible⟩
    simp only [List.mem_append, List.mem_cons] at hw ⊢
    tauto

/-- A beat that gives no energy up keeps batteries and plans in order. -/
theorem beat {now : Time} {pool pool' : ChargerPool Rat} {event : TaskEvent Rat}
    (h : Powered chosen (a ++ v :: b)) (hbeat : Beat now v pool event v' pool')
    (hplugged : event.unplugged = false) : Powered chosen (a ++ v' :: b) := by
  have hcapacity := h.capacity v (by simp)
  exact h.replace hbeat.id_eq (hbeat.withinCapacity hcapacity) (hbeat.feasible hplugged hcapacity)

end Powered

end DemandTransport
