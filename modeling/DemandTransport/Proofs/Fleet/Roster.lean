import DemandTransport.Proofs.Dispatch.Footprint
import DemandTransport.Proofs.Execution.Beat
import Mathlib.Data.List.Forall2

/-!
# Rosters

The vehicles of a run stand in the order of their numbers, every schedule is valid over the horizon
of its vehicle, and all chargers that are booked exist. A new fleet is of this kind. Planning for
one vehicle and a beat of one vehicle keep it so, since neither changes a number or a horizon.
-/

namespace DemandTransport

variable {R : Type}

/-- Every vehicle stands at the place of its number. -/
def Numbered (vehicles : List (Vehicle R)) : Prop :=
  vehicles.map Vehicle.id = (List.range vehicles.length).map Id.mk

/-- What always holds of the vehicles of a run and the chargers. -/
structure Roster (vehicles : List (Vehicle R)) (pool : ChargerPool R) : Prop where
  /-- The vehicles stand in the order of their numbers. -/
  numbered : Numbered vehicles
  /-- Every schedule is valid over the vehicle's horizon. -/
  valid : ∀ v ∈ vehicles, v.schedule.ValidOver v.start v.finish
  /-- The chargers of all open charging tasks exist. -/
  supplied : ∀ v ∈ vehicles, v.schedule.Supplied pool

/-- What holds of all elements holds when one is replaced by another one of which it holds. -/
theorem forall_mem_replace {α : Type} {P : α → Prop} {a b : List α} {x y : α}
    (h : ∀ z ∈ a ++ x :: b, P z) (hy : P y) : ∀ z ∈ a ++ y :: b, P z := by
  rw [List.forall_mem_append, List.forall_mem_cons] at h ⊢
  exact ⟨h.1, hy, h.2.2⟩

/-- Elements that correspond still do when one has been replaced. -/
theorem forall₂_of_replace {α β : Type} {P Q : α → β → Prop} {a b : List α} {v v₁ : α}
    {others : List β} (h : List.Forall₂ P (a ++ v₁ :: b) others)
    (hsame : ∀ u ∈ a ++ b, ∀ u', P u u' → Q u u') (hnew : ∀ v', P v₁ v' → Q v v') :
    List.Forall₂ Q (a ++ v :: b) others := by
  induction a generalizing others with
  | nil =>
    cases h with
    | cons hhead htail =>
      have hall := (List.forall₂_and_left b _).mpr ⟨fun u hu => hsame u (by simpa using hu), htail⟩
      exact .cons (hnew _ hhead) (hall.imp fun u u' hu => hu.1 u' hu.2)
  | cons u rest ih =>
    cases h with
    | cons hhead htail =>
      exact .cons (hsame u (by simp) _ hhead)
        (ih htail fun w hw => hsame w (by simp at hw ⊢; tauto))

/-! ## Looking up vehicles -/

section Numbers

variable {a b : List (Vehicle R)} {v v' : Vehicle R}

theorem numbered_iff {vehicles : List (Vehicle R)} :
    Numbered vehicles ↔ ∀ (i : Nat) (v : Vehicle R), vehicles[i]? = some v → v.id = ⟨i⟩ := by
  constructor
  · intro h i v hv
    have hi : i < vehicles.length := (List.getElem?_eq_some_iff.mp hv).1
    have hid : (vehicles.map Vehicle.id)[i]? = some v.id := by simp [hv]
    rw [h, List.getElem?_map, List.getElem?_range hi] at hid
    simpa using hid.symm
  · intro h
    refine List.ext_getElem (by simp) fun i hi _ => ?_
    have hi : i < vehicles.length := by simpa using hi
    simpa using h i vehicles[i] (List.getElem?_eq_getElem hi)

theorem Numbered.id_eq (h : Numbered (a ++ v :: b)) : v.id = ⟨a.length⟩ :=
  numbered_iff.mp h a.length v (by simp)

/-- No two vehicles have one number. -/
theorem Numbered.nodup {vehicles : List (Vehicle R)} (h : Numbered vehicles) :
    (vehicles.map Vehicle.id).Nodup := by
  rw [h]
  refine List.Nodup.map (fun i j hij => ?_) List.nodup_range
  simpa using hij

/-- A vehicle whose number comes once differs from all others in it. -/
theorem id_ne_of_nodup (h : ((a ++ v :: b).map Vehicle.id).Nodup) {w : Vehicle R}
    (hw : w ∈ a ++ b) : w.id ≠ v.id := by
  rw [List.map_append, List.map_cons, List.nodup_middle, List.nodup_cons, ← List.map_append] at h
  exact fun heq => h.1 (heq ▸ List.mem_map_of_mem hw)

theorem Numbered.replace (h : Numbered (a ++ v :: b)) (hid : v'.id = v.id) :
    Numbered (a ++ v' :: b) := by
  unfold Numbered at *
  simpa [hid] using h

/-- The vehicle with a number stands at its place. -/
theorem Fleet.get_ok {fleet : Fleet R} {id : VehicleId} (h : fleet.get id = .ok v) :
    ∃ a b, fleet.vehicles = a ++ v :: b ∧ a.length = id.index := by
  unfold get at h
  cases hv : fleet.vehicles[id.index]? with
  | none => simp [hv] at h
  | some found =>
    simp only [hv, Except.ok.injEq] at h
    subst h
    exact Schedule.exists_split hv

theorem Fleet.get_split {fleet : Fleet R} {id : VehicleId} (h : fleet.vehicles = a ++ v :: b)
    (hid : a.length = id.index) : fleet.get id = .ok v := by
  unfold get
  rw [h, ← hid]
  simp

theorem Fleet.set_split {fleet : Fleet R} {id : VehicleId} (h : fleet.vehicles = a ++ v :: b)
    (hid : a.length = id.index) : fleet.set id v' = ⟨a ++ v' :: b⟩ := by
  unfold set
  rw [h, ← hid]
  simp

/-- A vehicle of the fleet is found under its number. -/
theorem Fleet.get_id {fleet : Fleet R} (h : Numbered fleet.vehicles) (hv : v ∈ fleet.vehicles) :
    fleet.get v.id = .ok v := by
  obtain ⟨a, b, hsplit⟩ := List.append_of_mem hv
  rw [hsplit] at h
  exact Fleet.get_split hsplit (by rw [h.id_eq])

/-- Of the vehicles in order, the one that is found under a number is the one that has it. -/
theorem Fleet.get_eq_ok {fleet : Fleet R} (h : Numbered fleet.vehicles) {id : VehicleId} :
    fleet.get id = .ok v ↔ v ∈ fleet.vehicles ∧ v.id = id := by
  constructor
  · intro hget
    obtain ⟨a, b, hsplit, hlength⟩ := Fleet.get_ok hget
    rw [hsplit] at h ⊢
    exact ⟨by simp, by rw [h.id_eq, hlength]⟩
  · rintro ⟨hv, rfl⟩
    exact Fleet.get_id h hv

/-- Vehicles that each have something of a kind are not more than what there is of it. -/
theorem length_le_countP {β : Type} {vehicles : List (Vehicle R)} {ids : List VehicleId}
    {f : Vehicle R → List β} {p : β → Bool} (hids : ids.Nodup)
    (h : ∀ id ∈ ids, ∃ v ∈ vehicles, v.id = id ∧ ∃ b ∈ f v, p b = true) :
    ids.length ≤ (vehicles.flatMap f).countP p := by
  have hsubset : ids ⊆ (vehicles.filter fun v => (f v).any p).map Vehicle.id := by
    intro id hid
    obtain ⟨v, hv, rfl, hb⟩ := h id hid
    exact List.mem_map_of_mem (List.mem_filter.mpr ⟨hv, List.any_eq_true.mpr hb⟩)
  refine (hids.subperm hsubset).length_le.trans ?_
  clear h hsubset
  induction vehicles with
  | nil => simp
  | cons v rest ih =>
    rw [List.flatMap_cons, List.countP_append]
    cases hany : (f v).any p with
    | false =>
      rw [List.filter_cons_of_neg (by simp [hany])]
      omega
    | true =>
      have hpos : 0 < (f v).countP p := List.countP_pos_iff.mpr (List.any_eq_true.mp hany)
      rw [List.filter_cons_of_pos (by simpa using hany), List.map_cons, List.length_cons]
      omega

end Numbers

/-! ## Planning and execution -/

/-- Planning for one vehicle adds its bookings to those of all vehicles at most. -/
theorem Vehicle.Replanned.fleet_books {grid : StepGrid} {added : List Booking}
    {a b : List (Vehicle R)} {v v' : Vehicle R} (h : v.Replanned grid added v') :
    ((a ++ v' :: b).flatMap fun w => w.schedule.bookings grid).Subperm
      (added ++ (a ++ v :: b).flatMap fun w => w.schedule.bookings grid) := by
  simp only [List.flatMap_append, List.flatMap_cons]
  refine ((List.subperm_append_left _).mpr
    ((List.subperm_append_right _).mpr h.schedule.books)).trans (List.Perm.subperm ?_)
  rw [List.append_assoc, ← List.append_assoc, ← List.append_assoc added]
  exact List.perm_append_comm.append_right _

namespace Roster

variable {a b : List (Vehicle R)} {v v' : Vehicle R} {pool pool' : ChargerPool R}

/-- The chargers of open charging tasks are those that are booked. -/
theorem supplied_iff (grid : StepGrid) {s : Schedule R} :
    s.Supplied pool ↔ ∀ booking ∈ s.bookings grid, (pool.find? booking.charger).isSome := by
  constructor
  · intro h booking hbooking
    obtain ⟨task, htask, hopen, charger, hkind, rfl⟩ := Schedule.mem_bookings.mp hbooking
    exact h task htask hopen charger hkind
  · intro h task htask hopen charger hkind
    exact h (.ofSession grid charger task.start task.finish)
      (Schedule.mem_bookings.mpr ⟨task, htask, hopen, charger, hkind, rfl⟩)

theorem valid_at (h : Roster (a ++ v :: b) pool) : v.schedule.ValidOver v.start v.finish :=
  h.valid v (by simp)

/-- One vehicle is replaced by another one of its number. -/
theorem replace (h : Roster (a ++ v :: b) pool) (hid : v'.id = v.id)
    (hvalid : v'.schedule.ValidOver v'.start v'.finish) (hsupplied : v'.schedule.Supplied pool) :
    Roster (a ++ v' :: b) pool where
  numbered := h.numbered.replace hid
  valid := forall_mem_replace h.valid hvalid
  supplied := forall_mem_replace h.supplied hsupplied

/-- Chargers do not disappear. -/
theorem keeps {vehicles : List (Vehicle R)} (h : Roster vehicles pool) (hpool : pool.Keeps pool') :
    Roster vehicles pool' :=
  ⟨h.numbered, h.valid, fun v hv => (h.supplied v hv).keeps hpool⟩

/-- Planning for a vehicle books existing chargers. -/
theorem replanned {grid : StepGrid} {added : List Booking} (h : Roster (a ++ v :: b) pool)
    (hv : v.Replanned grid added v')
    (hadded : ∀ booking ∈ added, (pool.find? booking.charger).isSome) :
    Roster (a ++ v' :: b) pool := by
  refine h.replace (by rw [hv.same]) ?_ ((supplied_iff grid).mpr fun booking hbooking => ?_)
  · rw [hv.same]
    exact hv.schedule.valid h.valid_at
  · rcases List.mem_append.mp (hv.schedule.books.subset hbooking) with hnew | hold
    · exact hadded booking hnew
    · exact (supplied_iff grid).mp (h.supplied v (by simp)) booking hold

end Roster

/-- What a beat does to the chargers keeps them. -/
theorem Plugging.keeps {pool pool' : ChargerPool R} {id : VehicleId} {kind : TaskKind R}
    {phase : TaskPhase} {activity : Activity} (h : Plugging pool id kind phase activity pool') :
    pool.Keeps pool' := by
  cases h with
  | taken h => exact (ChargerPool.occupy_ok h).1
  | refused h => exact .refl _
  | given h => exact (ChargerPool.release_ok h).1
  | none h => exact .refl _

theorem Beat.keeps [Scalar R] {now : Time} {v v' : Vehicle R} {pool pool' : ChargerPool R}
    {event : TaskEvent R} (h : Beat now v pool event v' pool') : pool.Keeps pool' := by
  obtain ⟨_, _, _, _, -, -, -, -, -, -, hplugging, -⟩ := h
  exact hplugging.keeps

/-- A beat keeps the number of its vehicle. -/
theorem Beat.id_eq [Scalar R] {now : Time} {v v' : Vehicle R} {pool pool' : ChargerPool R}
    {event : TaskEvent R} (h : Beat now v pool event v' pool') : v'.id = v.id := by
  obtain ⟨_, _, _, _, -, -, -, -, hvehicle, -⟩ := h
  exact hvehicle.id

/-- A beat keeps the schedule of its vehicle valid. -/
theorem Beat.validOver [Scalar R] {now start finish : Time} {v v' : Vehicle R}
    {pool pool' : ChargerPool R} {event : TaskEvent R} (h : Beat now v pool event v' pool')
    (hv : v.schedule.ValidOver start finish) : v'.schedule.ValidOver start finish := by
  obtain ⟨before, after, task, task', htasks, hdone, hbecomes, -, hvehicle, -, -⟩ := h
  rw [Schedule.eq_of_tasks htasks] at hv
  rw [Schedule.eq_of_tasks hvehicle.tasks]
  exact hv.becomes hdone hbecomes

/-- A beat opens no charging task. -/
theorem Beat.supplied [Scalar R] {now : Time} {v v' : Vehicle R} {pool pool' : ChargerPool R}
    {event : TaskEvent R} (h : Beat now v pool event v' pool') (hv : v.schedule.Supplied pool) :
    v'.schedule.Supplied pool := by
  obtain ⟨before, after, task, task', htasks, -, hbecomes, -, hvehicle, -, -⟩ := h
  unfold Schedule.Supplied at hv ⊢
  rw [htasks] at hv
  rw [hvehicle.tasks]
  refine forall_mem_replace hv fun _ charger hkind => ?_
  exact hv task (by simp) hbecomes.not_over charger (hbecomes.kind ▸ hkind)

/-- A beat leaves the chargers of all open charging tasks known. -/
theorem Beat.supplied_after [Scalar R] {now : Time} {v v' : Vehicle R} {pool pool' : ChargerPool R}
    {event : TaskEvent R} (h : Beat now v pool event v' pool') (hv : v.schedule.Supplied pool) :
    v'.schedule.Supplied pool' :=
  (h.supplied hv).keeps h.keeps

/-- Execution keeps a roster. -/
theorem Roster.beat [Scalar R] {now : Time} {a b : List (Vehicle R)} {v v' : Vehicle R}
    {pool pool' : ChargerPool R} {event : TaskEvent R} (h : Roster (a ++ v :: b) pool)
    (hbeat : Beat now v pool event v' pool') : Roster (a ++ v' :: b) pool' := by
  have hsupplied := hbeat.supplied (h.supplied v (by simp))
  have hvalid := hbeat.validOver h.valid_at
  obtain ⟨before, after, task, task', -, -, -, -, hvehicle, -, hplugging⟩ := hbeat
  refine Roster.keeps (h.replace hvehicle.id ?_ hsupplied) hplugging.keeps
  rwa [hvehicle.start, hvehicle.finish]

/-! ## New fleets -/

variable [Scalar R]

/-- A vehicle that is idle for its whole horizon, with or without a battery. -/
def Vehicle.IsNew (v : Vehicle R) : Prop :=
  ∃ id node start finish seats, conventional id node start finish seats = .ok v ∨
    ∃ profile charge, electric id node start finish seats profile charge = .ok v

/-- A fleet of new vehicles, each at the place of its number. -/
structure Fleet.IsNew (fleet : Fleet R) : Prop where
  vehicles : ∀ v ∈ fleet.vehicles, v.IsNew
  numbered : Numbered fleet.vehicles

/-- The schedule of a new vehicle is new. -/
theorem Vehicle.IsNew.schedule {v : Vehicle R} (h : v.IsNew) :
    v.schedule.IsNew v.start v.finish := by
  obtain ⟨id, node, start, finish, seats, h | ⟨profile, charge, h⟩⟩ := h
  · unfold conventional at h
    split at h
    · cases h
      exact ⟨node, .inl ‹_›⟩
    · cases h
  · unfold electric at h
    split at h
    · cases h
    · dsimp only at h
      split at h
      · cases h
        exact ⟨node, .inr ⟨_, ‹_›⟩⟩
      · cases h

/-- A new vehicle has one task, which is idle time. -/
theorem Vehicle.IsNew.tasks {v : Vehicle R} (h : v.IsNew) :
    ∃ stay, v.schedule.tasks = [stay] ∧ stay.isStay = true ∧ stay.status = .planned := by
  obtain ⟨-, node, energy, htasks⟩ := h.schedule.tasks
  exact ⟨_, htasks, rfl, rfl⟩

/-- A new fleet is in order. -/
theorem Fleet.IsNew.roster {fleet : Fleet R} (h : fleet.IsNew) (pool : ChargerPool R) :
    Roster fleet.vehicles pool := by
  refine ⟨h.numbered, fun v hv => (h.vehicles v hv).schedule.validOver, fun v hv => ?_⟩
  obtain ⟨stay, htasks, hidle, -⟩ := (h.vehicles v hv).tasks
  intro task htask _ charger hkind
  rw [htasks, List.mem_singleton] at htask
  subst htask
  simp [Task.isStay, hkind, TaskKind.isStay] at hidle

omit [Scalar R] in
/-- Vehicles that are not misnumbered count up from where they should. -/
theorem Fleet.id_of_misnumbered?_eq_none {start : Nat} {vehicles : List (Vehicle R)}
    (h : misnumbered? start vehicles = none) {i : Nat} {v : Vehicle R}
    (hv : vehicles[i]? = some v) : v.id = ⟨start + i⟩ := by
  induction vehicles generalizing start i with
  | nil => simp at hv
  | cons first rest ih =>
    rw [misnumbered?] at h
    split at h
    next hfirst =>
      cases i with
      | zero =>
        rw [List.getElem?_cons_zero, Option.some.injEq] at hv
        rw [← hv, hfirst, Nat.add_zero]
      | succ i =>
        rw [List.getElem?_cons_succ] at hv
        rw [ih h hv, Nat.add_assoc, Nat.add_comm 1]
    next => cases h

omit [Scalar R] in
/-- A fleet holds the vehicles that it was made from, in the order of their numbers. -/
theorem Fleet.ofVehicles_ok {vehicles : List (Vehicle R)} {fleet : Fleet R}
    (h : Fleet.ofVehicles vehicles = .ok fleet) :
    fleet.vehicles.Perm vehicles ∧ Numbered fleet.vehicles := by
  unfold Fleet.ofVehicles at h
  dsimp only at h
  split at h
  · cases h
  next hsorted =>
    cases h
    refine ⟨List.mergeSort_perm _ _, numbered_iff.mpr fun i v hv => ?_⟩
    simpa using id_of_misnumbered?_eq_none hsorted hv

/-- The vehicle of a plan is new and has the number that it was given. -/
theorem Fleet.vehicleOf_isNew {start finish : Time} {index : Nat} {plan : VehiclePlan R}
    {v : Vehicle R} (h : vehicleOf start finish index plan = .ok v) : v.id = ⟨index⟩ ∧ v.IsNew := by
  unfold vehicleOf at h
  split at h
  · refine ⟨?_, _, _, _, _, _, .inl h⟩
    unfold Vehicle.conventional at h
    split at h <;> cases h
    rfl
  · refine ⟨?_, _, _, _, _, _, .inr ⟨_, _, h⟩⟩
    unfold Vehicle.electric at h
    split at h
    · cases h
    · dsimp only at h
      split at h <;> cases h
      rfl

/-- So are the vehicles of plans that are numbered from some number on. -/
theorem Fleet.vehiclesOf_isNew {start finish : Time} {plans : List (VehiclePlan R)} {n : Nat}
    {vehicles : List (Vehicle R)}
    (h : (plans.zipIdx n).mapM (fun entry => vehicleOf start finish entry.2 entry.1) = .ok vehicles)
    {i : Nat} {v : Vehicle R} (hv : vehicles[i]? = some v) : v.id = ⟨n + i⟩ ∧ v.IsNew := by
  induction plans generalizing n vehicles i with
  | nil =>
    cases h
    simp at hv
  | cons plan rest ih =>
    simp only [List.zipIdx_cons, List.mapM_cons, bind, Except.bind] at h
    split at h
    · cases h
    next first hfirst =>
      split at h
      · cases h
      next others hothers =>
        cases h
        cases i with
        | zero =>
          rw [List.getElem?_cons_zero, Option.some.injEq] at hv
          exact hv ▸ vehicleOf_isNew hfirst
        | succ i =>
          rw [List.getElem?_cons_succ] at hv
          have hlater := ih hothers hv
          rwa [Nat.add_assoc, Nat.add_comm 1] at hlater

/-- The vehicles of plans make a new fleet. -/
theorem Fleet.ofPlans_isNew {start finish : Time} {plans : List (VehiclePlan R)} {fleet : Fleet R}
    (h : Fleet.ofPlans start finish plans = .ok fleet) : fleet.IsNew := by
  unfold ofPlans at h
  dsimp only at h
  cases hrun : plans.zipIdx.mapM (fun entry => vehicleOf start finish entry.2 entry.1) with
  | error e => simp [hrun, Except.map] at h
  | ok vehicles =>
    simp only [hrun, Except.map, Except.ok.injEq] at h
    subst h
    refine ⟨fun v hv => ?_, numbered_iff.mpr fun i v hv => ?_⟩
    · obtain ⟨i, hi⟩ := List.mem_iff_getElem?.mp hv
      exact (vehiclesOf_isNew hrun hi).2
    · simpa using (vehiclesOf_isNew hrun hv).1

/-- So does the one of no vehicles, where the plans cannot be carried out. -/
theorem Fleet.ofPlans_getD_isNew (start finish : Time) (plans : List (VehiclePlan R)) :
    ((Fleet.ofPlans start finish plans).toOption.getD ⟨[]⟩).IsNew := by
  cases h : Fleet.ofPlans start finish plans with
  | error e => exact ⟨by simp [Except.toOption], rfl⟩
  | ok fleet => exact ofPlans_isNew h

end DemandTransport
