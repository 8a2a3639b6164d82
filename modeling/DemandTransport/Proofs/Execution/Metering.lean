import Mathlib.Tactic.Ring
import DemandTransport.Proofs.Energy.Outlook
import DemandTransport.Proofs.Fleet.Roster

/-!
# Metering the batteries

Execution changes a battery only when a task ends, and the event of that end tells by how much: not
by what the task accounts for, but by what the battery could take or give. So what the events tell
adds up to what all batteries have gained together, however often one of them was full or empty.
Planning leaves every battery alone.
-/

namespace DemandTransport

variable {R : Type}

/-! ## Batteries of a fleet -/

/-- The batteries of the electric vehicles among some, with the numbers of their vehicles. -/
def batteries (vehicles : List (Vehicle R)) : List (VehicleId × Battery R) :=
  vehicles.filterMap fun v => v.energy.map fun energy => (v.id, energy.battery)

section Batteries

variable {a b : List (Vehicle R)} {v v' : Vehicle R}

theorem batteries_of_electric {energy : VehicleEnergy R} (h : v.energy = some energy)
    (a b : List (Vehicle R)) :
    batteries (a ++ v :: b) = batteries a ++ (v.id, energy.battery) :: batteries b := by
  simp [batteries, List.filterMap_append, h]

/-- A vehicle may be replaced by another one of its number with the same battery. -/
theorem batteries_replace (hid : v'.id = v.id) (henergy : v'.energy = v.energy) :
    batteries (a ++ v' :: b) = batteries (a ++ v :: b) := by
  simp [batteries, List.filterMap_append, List.filterMap_cons, hid, henergy]

/-- Planning leaves every battery alone. -/
theorem batteries_replanned {grid : StepGrid} {added : List Booking}
    (h : v.Replanned grid added v') : batteries (a ++ v' :: b) = batteries (a ++ v :: b) :=
  batteries_replace (by rw [h.same]) (by rw [h.same])

theorem mem_batteries {vehicles : List (Vehicle R)} {entry : VehicleId × Battery R} :
    entry ∈ batteries vehicles ↔ ∃ v ∈ vehicles, ∃ energy, v.energy = some energy ∧
      entry = (v.id, energy.battery) := by
  simp [batteries, eq_comm]

end Batteries

/-- What some batteries hold together. -/
def stored (entries : List (VehicleId × Battery Rat)) : Rat :=
  (entries.map fun entry => entry.2.charge).sum

/-- What each of some batteries has gained, given how it was before. -/
def chargeGains (before after : List (VehicleId × Battery Rat)) : List Rat :=
  List.zipWith (fun had has => has.2.charge - had.2.charge) before after

/-- Battery by battery, the gains add up to what all of them hold more than before. -/
theorem sum_chargeGains {before after : List (VehicleId × Battery Rat)}
    (h : before.length = after.length) :
    (chargeGains before after).sum = stored after - stored before := by
  induction before generalizing after with
  | nil =>
    obtain rfl := List.length_eq_zero_iff.mp h.symm
    simp [chargeGains, stored]
  | cons had before ih =>
    obtain ⟨has, after, rfl⟩ := List.exists_cons_of_length_eq_add_one h.symm
    have hrest := ih (Nat.succ.inj h)
    simp only [chargeGains, stored, List.zipWith_cons_cons, List.map_cons, List.sum_cons] at hrest ⊢
    rw [hrest]
    ring

/-! ## One beat -/

/-- What has become of the battery of a vehicle when a change of charge is told, or none. -/
inductive Vehicle.Recharged (v v' : Vehicle Rat) : Option Rat → Prop
  /-- Nothing is told of a battery that stays as it is. -/
  | untouched (same : v'.energy = v.energy) : Recharged v v' none
  /-- The battery has gained what is told. -/
  | changed {energy energy' : VehicleEnergy Rat} {kwh : Rat} (had : v.energy = some energy)
    (has : v'.energy = some energy') (capacity : energy'.battery.capacity = energy.battery.capacity)
    (charge : energy'.battery.charge = energy.battery.charge + kwh)
    (inRange : energy.battery.InRange → energy'.battery.InRange) : Recharged v v' (some kwh)

/-- The end of a task tells the change that it makes, which may be less than the task accounts
for. -/
theorem Vehicle.applyEnergy_recharged (v : Vehicle Rat) (task : Task Rat) :
    v.Recharged (v.applyEnergy task).2 (v.applyEnergy task).1 := by
  unfold applyEnergy
  split
  next kwh energy _ henergy =>
    refine .changed henergy rfl rfl ?_ fun h => h.apply kwh
    simp [Battery.apply]
  next => exact .untouched rfl

/-- A beat changes the battery of its vehicle by what it tells. -/
theorem Beat.recharged {now : Time} {v v' : Vehicle Rat} {pool pool' : ChargerPool Rat}
    {event : TaskEvent Rat} (h : Beat now v pool event v' pool') :
    v.Recharged v' event.energy := by
  obtain ⟨_, _, task, _, -, -, -, -, -, -, -, hpowering, -, -, htold⟩ := h
  rw [htold]
  generalize event.phase = phase at hpowering
  generalize event.activity = activity at hpowering
  cases hpowering with
  | kept hbattery _ _ => exact .untouched hbattery
  | forfeited hbattery _ => exact .untouched hbattery
  | used hbattery _ =>
    change v.Recharged v' (v.applyEnergy task).1
    have hends := v.applyEnergy_recharged task
    generalize (v.applyEnergy task).1 = told at hends
    cases hends with
    | untouched hsame => exact .untouched (hbattery.trans hsame)
    | changed had has hcapacity hcharge hrange =>
      exact .changed had (hbattery.trans has) hcapacity hcharge hrange

/-! ## All vehicles -/

/-- Some batteries as they have become of others: each is of the same vehicle and of the same
capacity, none is overdrawn or overfull, and they have gained an amount together. -/
structure Metered (before after : List (VehicleId × Battery Rat)) (kwh : Rat) : Prop where
  same : (after.map fun entry => (entry.1, entry.2.capacity)) =
    before.map fun entry => (entry.1, entry.2.capacity)
  inRange : ∀ entry ∈ after, entry.2.InRange
  gained : stored after = stored before + kwh

namespace Metered

variable {before : List (VehicleId × Battery Rat)} {kwh : Rat}

/-- Some batteries have gained nothing before anything happens. -/
theorem start (h : ∀ entry ∈ before, entry.2.InRange) : Metered before before 0 :=
  ⟨rfl, h, (add_zero _).symm⟩

/-- So the gains of the single batteries add up to what they have gained together. -/
theorem sum_gains {after : List (VehicleId × Battery Rat)} (h : Metered before after kwh) :
    (chargeGains before after).sum = kwh := by
  have hlength : before.length = after.length := by
    simpa using (congrArg List.length h.same).symm
  rw [sum_chargeGains hlength, h.gained]
  ring

/-- A beat adds what it tells. -/
theorem beat {a b : List (Vehicle Rat)} {now : Time} {v v' : Vehicle Rat}
    {pool pool' : ChargerPool Rat} {event : TaskEvent Rat}
    (h : Metered before (batteries (a ++ v :: b)) kwh) (hbeat : Beat now v pool event v' pool') :
    Metered before (batteries (a ++ v' :: b)) (kwh + event.energy.getD 0) := by
  have hrecharged := hbeat.recharged
  have hid := hbeat.id_eq
  generalize event.energy = told at hrecharged
  cases hrecharged with
  | untouched hsame =>
    rw [batteries_replace hid hsame, Option.getD_none, add_zero]
    exact h
  | @changed energy energy' change had has hcapacity hcharge hrange =>
    rw [batteries_of_electric had] at h
    rw [batteries_of_electric has, hid, Option.getD_some]
    refine ⟨?_, ?_, ?_⟩
    · rw [← h.same]
      simp [hcapacity]
    · exact forall_mem_replace h.inRange (hrange (h.inRange (v.id, energy.battery) (by simp)))
    · have hgained := h.gained
      simp only [stored, List.map_append, List.map_cons, List.sum_append, List.sum_cons,
        hcharge] at hgained ⊢
      linarith

end Metered

end DemandTransport
