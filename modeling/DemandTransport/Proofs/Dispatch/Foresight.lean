import DemandTransport.Proofs.Dispatch.Feasibility

/-!
# The projection comes true

The projection of new tasks prices the idle time that they leave by its share of the whole, whereas
writing them cuts the idle time once and then trims it for one task after the other. Over the
rational numbers both come to the same: the charges that the vehicle goes through once the tasks
have been written are those that the projection saw.
-/

namespace DemandTransport

/-! ## The least charge -/

namespace Battery

/-- The charges that a battery goes through, from a first one on, while some changes are made one
after the other, each up to the capacity. -/
def charges (capacity charge : Rat) (kwhs : List Rat) : List Rat :=
  kwhs.scanl (fun charge kwh => min (charge + kwh) capacity) charge

theorem charges_cons (capacity charge kwh : Rat) (kwhs : List Rat) :
    charges capacity charge (kwh :: kwhs) =
      charge :: charges capacity (min (charge + kwh) capacity) kwhs :=
  List.scanl_cons

/-- The first one is the first one. -/
theorem exists_charges_eq (capacity charge : Rat) (kwhs : List Rat) :
    ∃ rest, charges capacity charge kwhs = charge :: rest := by
  cases kwhs with
  | nil => exact ⟨[], rfl⟩
  | cons kwh rest => exact ⟨_, charges_cons capacity charge kwh rest⟩

end Battery

namespace Trajectory

variable {capacity : Rat} {t : Trajectory Rat} {kwhs : List Rat}

/-- A charge that the capacity bounds, and that is not below the least that it has been. -/
structure Within (capacity : Rat) (t : Trajectory Rat) : Prop where
  least : t.least ≤ t.charge
  full : t.charge ≤ capacity

theorem step_eq (t : Trajectory Rat) (kwh : Rat) :
    t.step capacity kwh =
      ⟨min (t.charge + kwh) capacity, min t.least (min (t.charge + kwh) capacity)⟩ := by
  simp only [step, lesser_eq_min]

theorem steps_cons (t : Trajectory Rat) (kwh : Rat) (kwhs : List Rat) :
    t.steps capacity (kwh :: kwhs) = (t.step capacity kwh).steps capacity kwhs := rfl

theorem steps_append (t : Trajectory Rat) (a b : List Rat) :
    t.steps capacity (a ++ b) = (t.steps capacity a).steps capacity b :=
  List.foldl_append

/-- A step that changes nothing can be left out. -/
theorem Within.steps_of_share (h : t.Within capacity) {share : Rat}
    (hshare : kwhs = [share] ∨ kwhs = [] ∧ share = 0) :
    t.steps capacity kwhs = t.step capacity share := by
  rcases hshare with rfl | ⟨rfl, rfl⟩
  · rfl
  · rw [step_eq, add_zero, min_eq_left h.full, min_eq_left h.least]
    rfl

/-- A trajectory stays within the capacity. -/
theorem Within.steps (h : t.Within capacity) (kwhs : List Rat) :
    (t.steps capacity kwhs).Within capacity := by
  induction kwhs generalizing t with
  | nil => exact h
  | cons kwh rest ih =>
    refine ih ?_
    rw [step_eq]
    exact ⟨min_le_right _ _, min_le_right _ _⟩

/-- Its charge is that of a battery after the same changes. -/
theorem steps_charge (kwhs : List Rat) :
    (t.steps capacity kwhs).charge = Battery.chargeAfter capacity t.charge kwhs := by
  induction kwhs generalizing t with
  | nil => rfl
  | cons kwh rest ih => rw [steps_cons, ih, step_eq, Battery.chargeAfter_cons]

/-- Along the way the least charge is noted. -/
theorem steps_least (h : t.least ≤ t.charge) (kwhs : List Rat) :
    (t.steps capacity kwhs).least =
      (Battery.charges capacity t.charge kwhs).foldl min t.least := by
  induction kwhs generalizing t with
  | nil => simp [Battery.charges, steps, h]
  | cons kwh rest ih =>
    have hstep : (t.step capacity kwh).least ≤ (t.step capacity kwh).charge := by
      rw [step_eq]
      exact min_le_right _ _
    obtain ⟨others, hothers⟩ :=
      Battery.exists_charges_eq capacity (min (t.charge + kwh) capacity) rest
    rw [steps_cons, ih hstep, Battery.charges_cons, List.foldl_cons, min_eq_left h, step_eq,
      hothers, List.foldl_cons, List.foldl_cons, min_assoc, min_self]

/-- Its least charge is the least of those that the battery goes through. -/
theorem min?_charges (charge : Rat) (kwhs : List Rat) :
    (Battery.charges capacity charge kwhs).min? =
      some ((⟨charge, charge⟩ : Trajectory Rat).steps capacity kwhs).least := by
  obtain ⟨rest, hrest⟩ := Battery.exists_charges_eq capacity charge kwhs
  rw [steps_least (le_refl charge), hrest, List.min?_cons', List.foldl_cons, min_self]

end Trajectory

/-! ## Writing tasks -/

namespace Schedule

/-- Tasks that are written into planned idle time without being refused are planned. From their end
on the rest of the idle time draws at its rate, if anything is left. -/
theorem insertFrom_leaves {before tasks : List (Task Rat)} {stay : Task Rat} {rate : Rat}
    (hwaiting : stay.status = .planned) (hlasts : stay.start < stay.finish)
    (hrate : stay.DrawsAt rate) :
    (insertFrom before.length tasks).Ends ⟨before ++ [stay]⟩
      (fun _ _ => (∀ task ∈ tasks, task.status = .planned) ∧
        ∀ resume, (tasks.getLast?.map Task.finish).getD stay.start = resume →
          pendingEnergy ⟨leftover stay tasks⟩ =
              [rate * ((stay.finish.since resume : Nat) : Rat)] ∨
            pendingEnergy ⟨leftover stay tasks⟩ = [] ∧ resume = stay.finish)
      fun _ _ => True := by
  induction tasks generalizing before stay with
  | nil =>
    have hopen : stay.status ≠ .performed := by simp [hwaiting]
    simp only [insertFrom, leftover, pendingEnergy_of_open hopen]
    refine (Action.ends_pure _).mpr ⟨by simp, ?_⟩
    rintro resume rfl
    exact .inl (congrArg (fun kwh => [kwh]) hrate)
  | cons task more ih =>
    simp only [insertFrom, Action.ends_bind, InPlace.insert_eq, Action.ends_entirely]
    split
    next _ s' hinsert =>
      obtain ⟨first, found, after, htasks, hlength, hcarves, rfl, rfl⟩ := insert_ok hinsert
      obtain ⟨rfl, hfound⟩ := List.append_inj htasks hlength.symm
      obtain ⟨rfl, rfl⟩ : stay = found ∧ after = [] := by simpa using hfound
      have hfits := hcarves.fits
      by_cases hall : task.finish = stay.finish
      · cases more with
        | nil =>
          simp only [insertFrom, Action.ends_pure, leftover, remainder_eq_nil hall]
          refine ⟨by simpa using hcarves.fresh, ?_⟩
          rintro resume rfl
          exact .inr ⟨rfl, hall⟩
        | cons next others =>
          have hbeyond : insert ⟨before ++ [task]⟩ next (before.length + 1) =
              .error (.invalidInsertion (before.length + 1) (.beyondEnd (before.length + 1))) := by
            simp [insert]
          simp [insertFrom, InPlace.insert_eq, remainder_eq_nil hall, hbeyond]
      · obtain ⟨left, honly, -, hstatus, hstart, hfinish, -⟩ := remainder_of_ne hall
        have hdraws : left.DrawsAt rate :=
          @remainder_drawsAt rate stay task hrate hlasts left (by simp [honly])
        have hroom : left.start < left.finish := by
          rw [hstart, hfinish]
          simp only [Time.le_iff, Time.lt_iff, Time.eq_iff] at *
          omega
        have hlater := @ih (before ++ [task]) left (hstatus.trans hwaiting) hroom hdraws
        have hschedule : before ++ [task, left] = before ++ [task] ++ [left] := by simp
        have hindex : before.length + 1 = (before ++ [task]).length := by simp
        have hleftover : leftover stay (task :: more) = leftover left more := by
          simp [leftover, honly]
        rw [honly, List.append_nil, hschedule, hindex, hleftover]
        refine hlater.mono ?_ fun _ _ _ => trivial
        rintro - s' ⟨hplanned, hleaves⟩
        refine ⟨List.forall_mem_cons.mpr ⟨hcarves.fresh, hplanned⟩, fun resume hresume => ?_⟩
        rw [← hfinish]
        refine hleaves resume ?_
        rw [hstart, ← hresume]
        cases more <;> simp [List.getLast?_cons]
    · trivial

end Schedule

namespace Vehicle

variable {v v' : Vehicle Rat}

/-- What stands in front of the tasks that have been written ends by their begin. -/
theorem Written.earlier {before tasks : List (Task Rat)} {stay : Task Rat} {depart : Time}
    (h : Written before stay depart tasks v v') (hvalid : v.schedule.Valid) :
    ∀ task ∈ before ++ stay.partBefore depart, task.finish ≤ depart := by
  intro task htask
  rcases List.mem_append.mp htask with hold | hcut
  · rw [Schedule.eq_of_tasks h.old] at hvalid
    exact Nat.le_trans (hvalid.earlier.1 task hold).1 h.begins
  · rw [Task.eq_of_mem_partBefore hcut]
    exact Nat.le_refl _

/-- Tasks that are written into the open idle time without being refused leave the idle time behind
them its share of the energy, which is nothing if there is no such time. -/
theorem insertAt_leaves {now : Time} {slot : Slot} {tasks : List (Task Rat)}
    (hvalid : v.schedule.Valid) (hslot : v.openSlot? now = some slot)
    (hrun : insertAt slot.depart tasks v = .ok () v') :
    ∃ before stay, Written before stay slot.depart tasks v v' ∧ stay.start < stay.finish ∧
      (∀ task ∈ tasks, task.status = .planned) ∧
      (∀ left ∈ Schedule.leftover (stay.partFrom slot.depart) tasks, slot.depart ≤ left.start) ∧
      ∀ share, stay.shareBetween ((tasks.getLast?.map Task.finish).getD slot.depart) stay.finish =
          share →
        Schedule.pendingEnergy ⟨Schedule.leftover (stay.partFrom slot.depart) tasks⟩ = [share] ∨
          Schedule.pendingEnergy ⟨Schedule.leftover (stay.partFrom slot.depart) tasks⟩ = [] ∧
            share = 0 := by
  obtain ⟨before, stay, hlies⟩ := openSlot?_eq_some hslot
  have hwaiting := Task.partFrom_status hlies.opened hlies.fresh hlies.begins
  have hlasts := (hvalid.sound stay (by simp [hlies.tasks])).lasts
  have hbegins := Task.partFrom_start hlies.begins
  obtain ⟨rate, hrate⟩ := Task.exists_drawsAt hlasts
  have hpart := hrate.partFrom hlies.begins hlies.room
  have hroom : (stay.partFrom slot.depart).start < (stay.partFrom slot.depart).finish := by
    rw [hbegins, Task.partFrom_finish]
    exact hlies.room
  obtain ⟨hinsert, hsame⟩ := insertFrom_of_insertAt hvalid hlies hrun
  obtain ⟨hnew, hleft⟩ := (Schedule.insertFrom_writes hwaiting).of_ok hinsert
  obtain ⟨hplanned, hpending⟩ := (Schedule.insertFrom_leaves hwaiting hroom hpart).of_ok hinsert
  refine ⟨before, stay, ⟨hlies.tasks, hlies.idle, hlies.opened, hlies.begins, hwaiting, hsame,
    hnew⟩, hlasts, hplanned, fun left hmem => hbegins ▸ (hleft left hmem).2, ?_⟩
  rintro share rfl
  rw [hbegins, Task.partFrom_finish] at hpending
  rw [hrate.shareBetween hlasts]
  refine (hpending _ rfl).imp_right fun hnone => ⟨hnone.1, ?_⟩
  have hsecs : stay.finish.since stay.finish = 0 := Nat.sub_self _
  rw [hnone.2, hsecs, Nat.cast_zero, mul_zero]

/-- The projection of tasks that are then written comes true. Once they stand in the schedule,
behind everything that ends by the time from which the vehicle is open for work, the charge after
them is the projected one, and the least of all charges that the vehicle goes through, from its
present one on, is the projected least one. -/
theorem projection_comes_true {energy : VehicleEnergy Rat} {now : Time} {slot : Slot}
    {tasks : List (Task Rat)} (hvalid : v.schedule.validate = .ok ())
    (henergy : v.energy = some energy) (hcapacity : energy.battery.charge ≤ energy.battery.capacity)
    (hslot : v.openSlot? now = some slot) (hrun : insertAt slot.depart tasks v = .ok () v') :
    ∃ projection before after, v.project? slot.depart tasks = some projection ∧
      v' = { v with schedule := ⟨before ++ tasks ++ after⟩ } ∧
      (∀ task ∈ before, task.finish ≤ slot.depart) ∧
      (∀ task ∈ after, slot.depart ≤ task.start) ∧
      Battery.chargeAfter energy.battery.capacity energy.battery.charge
        (Schedule.pendingEnergy ⟨before ++ tasks⟩) = projection.afterTasks ∧
      (Battery.charges energy.battery.capacity energy.battery.charge
        v'.schedule.pendingEnergy).min? = some projection.least := by
  have hv := Schedule.validate_eq_ok_iff.mp hvalid
  obtain ⟨before, stay, hwritten, hlasts, hplanned, hlater, hleaves⟩ :=
    insertAt_leaves hv hslot hrun
  have hproject := @project?_eq v energy before tasks stay slot.depart henergy hwritten.old
    hwritten.idle
  have hnew := Schedule.eq_of_tasks hwritten.new
  have hpart := Schedule.pendingEnergy_partBefore hlasts hwritten.opened hwritten.begins
  have hrest := hleaves _ rfl
  generalize stay.shareBetween ((tasks.getLast?.map Task.finish).getD slot.depart) stay.finish =
    share at hproject hrest
  generalize stay.shareBetween stay.start slot.depart = wait at hproject hpart
  have hpresent : Trajectory.Within energy.battery.capacity
      ⟨energy.battery.charge, energy.battery.charge⟩ := ⟨le_refl _, hcapacity⟩
  have hcharge (kwhs : List Rat) : ((⟨energy.battery.charge, energy.battery.charge⟩ :
      Trajectory Rat).steps energy.battery.capacity kwhs).charge =
        Battery.chargeAfter energy.battery.capacity energy.battery.charge kwhs :=
    Trajectory.steps_charge kwhs
  have hleast := @Trajectory.min?_charges energy.battery.capacity energy.battery.charge
  generalize (⟨energy.battery.charge, energy.battery.charge⟩ : Trajectory Rat) = present at *
  have hworked : present.steps energy.battery.capacity
        (Schedule.pendingEnergy ⟨before ++ stay.partBefore slot.depart ++ tasks⟩) =
      present.steps energy.battery.capacity
        (Schedule.pendingEnergy ⟨before⟩ ++ wait :: tasks.map Task.energyOrZero) := by
    rw [Schedule.pendingEnergy_append, Schedule.pendingEnergy_append, Trajectory.steps_append,
      Trajectory.steps_append, (hpresent.steps _).steps_of_share hpart,
      Schedule.pendingEnergy_of_planned hplanned, Trajectory.steps_append, Trajectory.steps_cons]
  have hall : present.steps energy.battery.capacity v'.schedule.pendingEnergy =
      (present.steps energy.battery.capacity (Schedule.pendingEnergy ⟨before⟩ ++
        wait :: tasks.map Task.energyOrZero)).step energy.battery.capacity share := by
    rw [hnew, Schedule.pendingEnergy_append, Trajectory.steps_append, hworked,
      (hpresent.steps _).steps_of_share hrest]
  refine ⟨_, before ++ stay.partBefore slot.depart, _, hproject, ?_, hwritten.earlier hv, hlater,
    ?_, ?_⟩
  · rw [← hnew]
    exact hwritten.same
  · rw [← hcharge, hworked]
  · rw [hleast, hall]

/-- A vehicle that is idle for two hours is to wait in the second half hour and to charge in the
third, until its battery is full. Its charge is lowest when charging begins. -/
theorem projection_comes_true_full :
    let profile : EnergyProfile Rat := ⟨10, ⟨"flat", ⟨0, 1⟩, ⟨0, 1⟩, ⟨1, 1⟩, ⟨1, 1⟩⟩, 0.2, 0.5⟩
    let idle : Task Rat := { Task.stay ⟨0⟩ .zero (.ofSecs 7200) with
      status := .started, energy := some (-1), startedAt := some .zero }
    let v : Vehicle Rat := ⟨⟨0⟩, ⟨0⟩, .zero, .ofSecs 7200, 1, some ⟨profile, ⟨10, 8⟩⟩, ⟨[idle]⟩⟩
    let tasks : List (Task Rat) :=
      [(Task.stay ⟨0⟩ (.ofSecs 1800) (.ofSecs 3600)).withEnergy (-0.25),
        (Task.charge ⟨7⟩ ⟨0⟩ (.ofSecs 3600) (.ofSecs 5400)).withEnergy 5]
    ∃ v' before after, insertAt (.ofSecs 1800) tasks v = .ok () v' ∧
      v'.schedule.tasks = before ++ tasks ++ after ∧
      Battery.chargeAfter 10 8 (Schedule.pendingEnergy ⟨before ++ tasks⟩) = 10 ∧
      (Battery.charges 10 8 v'.schedule.pendingEnergy).min? = some 7.5 := by
  intro profile idle v tasks
  have hprojected : v.project? (.ofSecs 1800) tasks = some ⟨10, 7.5⟩ := by decide +kernel
  have hslot : v.openSlot? (.ofSecs 1800) = some ⟨⟨0⟩, .ofSecs 1800, .ofSecs 7200⟩ := by
    decide +kernel
  have hwritten : ((insertAt (.ofSecs 1800) tasks).after? v).isSome = true := by decide +kernel
  obtain ⟨v', hafter⟩ := Option.isSome_iff_exists.mp hwritten
  obtain ⟨⟨⟩, hrun⟩ := Action.after?_eq_some.mp hafter
  obtain ⟨projection, before, after, hproject, hsame, -, -, hcharge, hleast⟩ :=
    projection_comes_true (by decide +kernel) rfl (by decide) hslot hrun
  obtain rfl := Option.some.inj (hproject.symm.trans hprojected)
  exact ⟨v', before, after, hrun, by rw [hsame], hcharge, hleast⟩

end Vehicle

end DemandTransport
