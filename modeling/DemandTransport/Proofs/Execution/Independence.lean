import DemandTransport.Proofs.Execution.Charging
import DemandTransport.Proofs.Execution.Docking

/-!
# The order of the vehicles

The vehicles of a fleet share the chargers only. As long as there are plugs for all charging tasks
that are being executed or are to begin, no vehicle is ever refused a plug, and then what a vehicle
does depends on its own schedule alone. So the vehicles may be brought up to an instant in any
order.
-/

namespace DemandTransport

variable {R : Type}

/-! ## One vehicle among any chargers -/

namespace VehicleState

/-- Two states of one vehicle, which may differ in the chargers. -/
structure Alike (state other : VehicleState R) : Prop where
  vehicle : other.vehicle = state.vehicle
  movement : other.movement = state.movement

variable [Scalar R] {state other : VehicleState R} {index : Nat} {task : Task R} {now : Time}

theorem plugIn_alike (charger : ChargerId) :
    (plugIn index charger).Ends state (fun plugged left => plugged = true → state.Alike left)
      fun _ _ => True := by
  simp only [plugIn, Action.ends_bind, Action.ends_get]
  split
  · simp only [Action.ends_bind, Action.ends_set, Action.ends_pure]
    exact fun _ => ⟨rfl, rfl⟩
  · simp only [Action.ends_bind, Action.ends_pure]
    exact .of_forall (by simp) (by simp)
  · trivial

omit [Scalar R] in
theorem unplug_alike (charger : ChargerId) :
    (unplug charger).Ends state (fun _ left => state.Alike left) fun _ _ => True := by
  simp only [unplug, Action.ends_bind, Action.ends_get]
  split
  · exact ⟨rfl, rfl⟩
  · trivial

theorem advanceTask_alike (status : TaskStatus) (t : Time) :
    (advanceTask index status t).Ends state
      (fun energy left => state.vehicle.advanceTask index status t = .ok (energy, left.vehicle) ∧
        left.movement = state.movement) fun _ _ => True := by
  simp only [advanceTask, Vehicle.InPlace.advanceTask_eq, Action.ends_mapError,
    Action.ends_within, Action.ends_entirely]
  split
  next h => exact ⟨h, trivial⟩
  next => trivial

/-- What the start of a task tells and leaves, unless a plug is missing. -/
theorem startTask_gives :
    (startTask index task).Ends state
      (fun event left => event.unplugged = false → ∃ energy,
        state.vehicle.advanceTask index .started task.start = .ok (energy, left.vehicle) ∧
          event = ⟨state.vehicle.id, index, .started, .ofKind task.kind, task.start, none⟩ ∧
          left.movement = match task.kind with
            | .drive route => .driving route
            | _ => .stationary task.source task.start) fun _ _ => True := by
  simp only [startTask, Action.ends_bind, Action.ends_get]
  refine (advanceTask_alike .started task.start).mono ?_ fun _ _ h => h
  rintro energy mid ⟨hadvance, -⟩
  cases task.kind with
  | charge charger =>
    simp only [Action.ends_bind]
    refine (plugIn_alike charger).mono ?_ fun _ _ h => h
    intro plugged last halike
    simp only [moveTo, Action.ends_pure, Action.ends_modify]
    intro hplugged
    cases plugged with
    | true => exact ⟨energy, by rw [hadvance, ← (halike rfl).vehicle], rfl, trivial⟩
    | false => simp [TaskEvent.unplugged] at hplugged
  | stay _ | drive _ | pickup _ | dropoff _ =>
    simp only [moveTo, Action.ends_pure, Action.ends_bind, Action.ends_modify]
    exact fun _ => ⟨energy, hadvance, trivial, trivial⟩

/-- What the end of a task tells and leaves, unless a plug is missing. -/
theorem endTask_gives :
    (endTask index task).Ends state
      (fun event left => event.unplugged = false → ∃ energy,
        state.vehicle.advanceTask index .performed task.finish = .ok (energy, left.vehicle) ∧
          event = ⟨state.vehicle.id, index, .ended, .ofKind task.kind, task.finish, energy⟩ ∧
          left.movement = if task.kind.isDrive then .stationary task.target task.finish
            else state.movement) fun _ _ => True := by
  simp only [endTask, Action.ends_bind, Action.ends_get]
  refine (advanceTask_alike .performed task.finish).mono ?_ fun _ _ h => h
  rintro energy mid ⟨hadvance, hmovement⟩
  cases task.kind with
  | charge charger =>
    simp only [Action.ends_bind, TaskKind.isDrive, Bool.false_eq_true, if_false, Action.ends_pure]
    refine (unplug_alike charger).mono ?_ fun _ _ h => h
    intro held last halike hplugged
    cases held with
    | true =>
      exact ⟨energy, by rw [hadvance, halike.vehicle], rfl, halike.movement.trans hmovement⟩
    | false => simp [TaskEvent.unplugged] at hplugged
  | drive _ =>
    simp only [moveTo, TaskKind.isDrive, Action.ends_pure, Action.ends_bind, Action.ends_modify,
      if_true]
    exact fun _ => ⟨energy, hadvance, rfl, trivial⟩
  | stay _ | pickup _ | dropoff _ =>
    simp only [TaskKind.isDrive, Action.ends_pure, Action.ends_bind, Bool.false_eq_true, if_false]
    exact fun _ => ⟨energy, hadvance, rfl, hmovement⟩

/-- What the first open task does and tells does not depend on the chargers, unless a plug is
missing. -/
theorem advanceOnce_alike (halike : state.Alike other) {told told' : Option (TaskEvent R)}
    {left left' : VehicleState R} (h : advanceOnce now state = .ok told left)
    (h' : advanceOnce now other = .ok told' left')
    (hplugged : ∀ event ∈ told, event.unplugged = false)
    (hplugged' : ∀ event ∈ told', event.unplugged = false) :
    told' = told ∧ left.Alike left' := by
  have hends : (advanceOnce now).Ends state (fun told left =>
      (∀ event ∈ told, event.unplugged = false) →
        (advanceOnce now).Ends other (fun told' left' =>
          (∀ event ∈ told', event.unplugged = false) → told' = told ∧ left.Alike left')
        fun _ _ => True) fun _ _ => True := by
    simp only [advanceOnce, Action.ends_bind, Action.ends_get, halike.vehicle]
    cases state.vehicle.schedule.firstOpen? with
    | none => exact fun _ _ => ⟨rfl, halike⟩
    | some found =>
      obtain ⟨index, task⟩ := found
      dsimp only
      split
      · simp only [Action.ends_map, Option.mem_some_iff, forall_eq']
        refine startTask_gives.mono (fun event left hgives hplugged => ?_) fun _ _ h => h
        refine startTask_gives.mono (fun event' left' hgives' hplugged' => ?_) fun _ _ h => h
        obtain ⟨energy, hadvance, rfl, hmovement⟩ := hgives hplugged
        obtain ⟨energy', hadvance', rfl, hmovement'⟩ := hgives' hplugged'
        rw [halike.vehicle, hadvance] at hadvance'
        obtain ⟨-, hvehicle⟩ := Prod.mk.inj (Except.ok.inj hadvance')
        exact ⟨by rw [halike.vehicle], hvehicle.symm, hmovement'.trans hmovement.symm⟩
      · split
        · simp only [Action.ends_map, Option.mem_some_iff, forall_eq']
          refine endTask_gives.mono (fun event left hgives hplugged => ?_) fun _ _ h => h
          refine endTask_gives.mono (fun event' left' hgives' hplugged' => ?_) fun _ _ h => h
          obtain ⟨energy, hadvance, rfl, hmovement⟩ := hgives hplugged
          obtain ⟨energy', hadvance', rfl, hmovement'⟩ := hgives' hplugged'
          rw [halike.vehicle, hadvance] at hadvance'
          obtain ⟨rfl, hvehicle⟩ := Prod.mk.inj (Except.ok.inj hadvance')
          rw [halike.movement] at hmovement'
          exact ⟨by rw [halike.vehicle], hvehicle.symm, hmovement'.trans hmovement.symm⟩
        · exact fun _ _ => ⟨rfl, halike⟩
  exact (hends.of_ok h hplugged).of_ok h' hplugged'

/-- The first of several rounds, and the others if it has told of an event. -/
theorem advanceUpTo_ok {bound : Nat} {events : List (TaskEvent R)} {left : VehicleState R}
    (h : advanceUpTo now (bound + 1) state = .ok events left) :
    ∃ told mid later, advanceOnce now state = .ok told mid ∧ events = told.toList ++ later ∧
      (told = none → later = [] ∧ left = mid) ∧
      ∀ event ∈ told, advanceUpTo now bound mid = .ok later left := by
  obtain ⟨told, mid, honce, hrest⟩ := Action.exists_of_bind_ok h
  cases told with
  | none =>
    cases hrest
    exact ⟨none, _, [], honce, rfl, fun _ => ⟨rfl, rfl⟩, by simp⟩
  | some event =>
    obtain ⟨later, last, hlater, hlast⟩ := Action.exists_of_bind_ok hrest
    cases hlast
    exact ⟨some event, mid, later, honce, rfl, by simp, fun _ _ => hlater⟩

theorem advanceUpTo_alike (halike : state.Alike other) {bound : Nat}
    {events events' : List (TaskEvent R)} {left left' : VehicleState R}
    (h : advanceUpTo now bound state = .ok events left)
    (h' : advanceUpTo now bound other = .ok events' left')
    (hplugged : ∀ event ∈ events, event.unplugged = false)
    (hplugged' : ∀ event ∈ events', event.unplugged = false) :
    events' = events ∧ left.Alike left' := by
  induction bound generalizing state other events events' with
  | zero =>
    cases h
    cases h'
    exact ⟨rfl, halike⟩
  | succ bound ih =>
    obtain ⟨told, mid, later, honce, rfl, hnone, hrest⟩ := advanceUpTo_ok h
    obtain ⟨told', mid', later', honce', rfl, hnone', hrest'⟩ := advanceUpTo_ok h'
    rw [List.forall_mem_append] at hplugged hplugged'
    obtain ⟨rfl, hmid⟩ := advanceOnce_alike halike honce honce'
      (fun event hevent => hplugged.1 event (Option.mem_toList.mpr hevent))
      fun event hevent => hplugged'.1 event (Option.mem_toList.mpr hevent)
    cases told' with
    | none =>
      obtain ⟨rfl, rfl⟩ := hnone rfl
      obtain ⟨rfl, rfl⟩ := hnone' rfl
      exact ⟨rfl, hmid⟩
    | some event =>
      obtain ⟨rfl, hleft⟩ := ih hmid (hrest event rfl) (hrest' event rfl) hplugged.2 hplugged'.2
      exact ⟨rfl, hleft⟩

/-- What a vehicle does and tells does not depend on the chargers, as long as no plug is missing. -/
theorem advance_alike (halike : state.Alike other) {events events' : List (TaskEvent R)}
    {left left' : VehicleState R} (h : advance now state = .ok events left)
    (h' : advance now other = .ok events' left')
    (hplugged : ∀ event ∈ events, event.unplugged = false)
    (hplugged' : ∀ event ∈ events', event.unplugged = false) :
    events' = events ∧ left.Alike left' := by
  have hbound {s : VehicleState R} {told : List (TaskEvent R)} {last : VehicleState R}
      (hrun : advance now s = .ok told last) :
      advanceUpTo now (2 * s.vehicle.schedule.tasks.length) s = .ok told last := by
    obtain ⟨_, _, hget, hrest⟩ := Action.exists_of_bind_ok hrun
    cases hget
    exact hrest
  have hother := hbound h'
  rw [halike.vehicle] at hother
  exact advanceUpTo_alike halike (hbound h) hother hplugged hplugged'

end VehicleState

/-! ## Plugs for everybody -/

/-- Whether a task is being executed at a charger or is to begin there by an instant. -/
def Task.engages (now : Time) (charger : ChargerId) (task : Task R) : Bool :=
  task.kind.docksAt = some charger &&
    (task.status = .started || task.status = .planned && task.start ≤ now)

theorem Task.engages_iff {now : Time} {charger : ChargerId} {task : Task R} :
    task.engages now charger = true ↔ task.kind = .charge charger ∧
      (task.status = .started ∨ task.status = .planned ∧ task.start ≤ now) := by
  simp [engages, TaskKind.docksAt_eq_some_iff]

/-- How many tasks of some vehicles are being executed at a charger or are to begin there by an
instant. -/
def engaged (now : Time) (charger : ChargerId) (vehicles : List (Vehicle R)) : Nat :=
  (vehicles.flatMap fun v => v.schedule.tasks).countP (Task.engages now charger)

/-- Vehicles that hold the plugs of their tasks, with plugs for all tasks to come by an instant. -/
structure Unhindered [Scalar R] (now : Time) (vehicles : List (Vehicle R))
    (pool : ChargerPool R) : Prop extends Docked vehicles pool where
  /-- No session is without a plug. -/
  served : ∀ v ∈ vehicles, ∀ task ∈ v.schedule.tasks, ∀ charger, task.ChargesAt charger →
    v.id ∈ pool.plugged charger
  /-- There are plugs for all of them. -/
  room : ∀ charger, engaged now charger vehicles ≤ pool.plugs charger

variable [Scalar R] {now : Time} {a b : List (Vehicle R)} {v v' : Vehicle R}
  {pool pool' : ChargerPool R} {event : TaskEvent R}

omit [Scalar R] in
theorem engaged_perm {vehicles others : List (Vehicle R)} (h : vehicles.Perm others)
    (charger : ChargerId) : engaged now charger others = engaged now charger vehicles :=
  ((h.flatMap_right _).countP_eq _).symm

/-- A beat engages no charger anew. -/
theorem Beat.engaged_le (h : Beat now v pool event v' pool') (charger : ChargerId) :
    engaged now charger (a ++ v' :: b) ≤ engaged now charger (a ++ v :: b) := by
  obtain ⟨before, after, task, task', htasks, -, hbecomes, hdue, hvehicle, -⟩ := h
  have htask : task'.engages now charger = true → task.engages now charger = true := by
    rw [Task.engages_iff, Task.engages_iff, hbecomes.status, hbecomes.kind]
    cases hphase : event.phase with
    | started =>
      rw [hphase] at hdue hbecomes
      exact fun hold => ⟨hold.1, .inr ⟨hbecomes.was_planned, hdue⟩⟩
    | ended => simp [TaskPhase.status]
  simp only [engaged, List.flatMap_append, List.flatMap_cons, List.countP_append, htasks,
    hvehicle.tasks, List.countP_cons]
  cases hold : task.engages now charger <;> cases hnew : task'.engages now charger <;>
    simp_all

namespace Unhindered

/-- A vehicle that is to charge finds a plug. -/
theorem exists_plug (h : Unhindered now (a ++ v :: b) pool) {task : Task R}
    {charger : ChargerId} (htask : task ∈ v.schedule.tasks) (hplanned : task.status = .planned)
    (hkind : task.kind = .charge charger) (hdue : task.start ≤ now) :
    ∃ pool', pool.occupy charger v.id = .ok pool' := by
  have hknown := (h.docked v (by simp)).supplied task htask (by simp [hplanned]) charger hkind
  refine (ChargerPool.occupy_cases hknown v.id).resolve_right ?_
  rintro ⟨plugs, hfull⟩
  obtain ⟨hout, hplugs⟩ := ChargerPool.occupy_full hfull
  have hengaged : (v.id :: pool.plugged charger).length ≤ engaged now charger (a ++ v :: b) := by
    refine length_le_countP (List.nodup_cons.mpr ⟨hout, (h.orderly charger).1⟩) fun id hid => ?_
    rcases List.mem_cons.mp hid with rfl | hid
    · exact ⟨v, by simp, rfl, task, htask, Task.engages_iff.mpr ⟨hkind, .inr ⟨hplanned, hdue⟩⟩⟩
    · obtain ⟨w, hw, rfl⟩ := List.mem_map.mp (h.known charger id hid)
      obtain ⟨running, hrunning, hstarted, hcharges⟩ := (h.docked w hw).held charger hid
      exact ⟨w, hw, rfl, running, hrunning, Task.engages_iff.mpr ⟨hcharges, .inl hstarted⟩⟩
  have hroom := h.room charger
  rw [List.length_cons] at hengaged
  omega

/-- A beat tells of no vehicle that is to charge without a plug. -/
theorem plugged (h : Unhindered now (a ++ v :: b) pool) (hbeat : Beat now v pool event v' pool') :
    event.unplugged = false := by
  obtain ⟨before, after, task, task', htasks, -, hbecomes, hdue, -, -, hplugging, -⟩ := hbeat
  have htask : task ∈ v.schedule.tasks := by simp [htasks]
  unfold TaskEvent.unplugged
  generalize hkind : task.kind = kind at hplugging
  generalize event.phase = phase at hplugging hdue hbecomes
  generalize event.activity = activity at hplugging
  cases hplugging with
  | taken _ => rfl
  | @refused charger _ hfull =>
    obtain ⟨pool', hok⟩ := h.exists_plug htask hbecomes.was_planned hkind hdue
    rw [hok] at hfull
    cases hfull
  | @given charger held _ hrelease =>
    have hin := h.served v (by simp) task htask charger ⟨hbecomes.was_started, hkind⟩
    rw [(ChargerPool.release_ok hrelease).2.1, decide_eq_true hin]
  | none _ => cases kind <;> rfl

theorem beat (h : Unhindered now (a ++ v :: b) pool) (hbeat : Beat now v pool event v' pool') :
    Unhindered now (a ++ v' :: b) pool' := by
  have hplugged := h.plugged hbeat
  have hsessions := ((h.docked v (by simp)).sessions h.orderly hbeat).2
  have hroom (charger : ChargerId) := (hbeat.engaged_le charger).trans (h.room charger)
  refine ⟨h.toDocked.beat hbeat, fun w hw task htask charger hcharges => ?_, fun charger => ?_⟩
  · obtain ⟨_, _, _, _, -, -, -, -, -, -, hplugging, -⟩ := hbeat
    rcases List.mem_cons.mp (List.perm_middle.mem_iff.mp hw) with rfl | hother
    · exact (hsessions task htask charger hcharges).resolve_right fun hrefused =>
        event.activity_ne hplugged charger hrefused.1
    · have hw' := List.perm_middle.mem_iff.mpr (List.mem_cons_of_mem v hother)
      rw [hplugging.plugged_of_ne (h.id_ne hother)]
      exact h.served w hw' task htask charger hcharges
  · rw [hbeat.keeps.plugs]
    exact hroom charger

/-- In the course of execution, no event tells of a vehicle without a plug. -/
theorem steady (now : Time) (original : ChargerPool R) :
    Steady now (fun (_ : Unit) (event : TaskEvent R) =>
        if event.unplugged then .error () else .ok ())
      fun vs pool _ => Unhindered now vs pool ∧ original.Keeps pool where
  ready h w hw := ⟨(h.1.docked w hw).ordered, (h.1.docked w hw).supplied⟩
  beat h hbeat := ⟨(), by simp [h.1.plugged hbeat], h.1.beat hbeat, h.2.trans hbeat.keeps⟩

theorem perm {vehicles others : List (Vehicle R)} (h : Unhindered now vehicles pool)
    (hperm : vehicles.Perm others) : Unhindered now others pool where
  nodup := (hperm.map Vehicle.id).nodup_iff.mp h.nodup
  orderly := h.orderly
  known charger id hin := (hperm.map Vehicle.id).mem_iff.mp (h.known charger id hin)
  docked v hv := h.docked v (hperm.mem_iff.mpr hv)
  served v hv := h.served v (hperm.mem_iff.mpr hv)
  room charger := engaged_perm hperm charger ▸ h.room charger

/-- Who holds plugs can be read off the vehicles. -/
theorem plugged_iff {vehicles : List (Vehicle R)} (h : Unhindered now vehicles pool)
    (charger : ChargerId) (id : VehicleId) : id ∈ pool.plugged charger ↔
      ∃ v ∈ vehicles, v.id = id ∧ ∃ task ∈ v.schedule.tasks, task.ChargesAt charger := by
  constructor
  · intro hin
    obtain ⟨v, hv, rfl⟩ := List.mem_map.mp (h.known charger id hin)
    exact ⟨v, hv, rfl, (h.docked v hv).held charger hin⟩
  · rintro ⟨v, hv, rfl, task, htask, hcharges⟩
    exact h.served v hv task htask charger hcharges

/-- So the same vehicles occupy the same chargers in the same way. -/
theorem occupancy_eq {vehicles : List (Vehicle R)} (h : Unhindered now vehicles pool)
    (h' : Unhindered now vehicles pool') (hkeeps : pool.Keeps pool') (charger : ChargerId) :
    pool'.occupancy charger = pool.occupancy charger := by
  refine ChargerPool.occupancy_congr hkeeps ?_
  refine (List.perm_ext_iff_of_nodup (h.orderly charger).1 (h'.orderly charger).1).mpr fun id => ?_
  rw [h.plugged_iff, h'.plugged_iff]

/-- Vehicles are unhindered when plugs are held for the sessions being executed and for nothing
else, and there are enough of them. -/
theorem of_held {vehicles : List (Vehicle R)} (hnumbered : Numbered vehicles)
    (hvalid : ∀ v ∈ vehicles, v.schedule.Valid)
    (hsupplied : ∀ v ∈ vehicles, v.schedule.Supplied pool)
    (halone : ∀ charger, (pool.plugged charger).Nodup)
    (hheld : ∀ charger id, id ∈ pool.plugged charger ↔
      ∃ v ∈ vehicles, v.id = id ∧ ∃ task ∈ v.schedule.tasks, task.ChargesAt charger)
    (hroom : ∀ charger, engaged now charger vehicles ≤ pool.plugs charger) :
    Unhindered now vehicles pool := by
  have hserved : ∀ v ∈ vehicles, ∀ task ∈ v.schedule.tasks, ∀ charger, task.ChargesAt charger →
      v.id ∈ pool.plugged charger := fun v hv task htask charger hcharges =>
    (hheld charger v.id).mpr ⟨v, hv, rfl, task, htask, hcharges⟩
  refine ⟨⟨hnumbered.nodup, fun charger => ⟨halone charger, ?_⟩, fun charger id hin => ?_,
    fun v hv => ⟨(hvalid v hv).inSequence, hsupplied v hv, fun charger hin => ?_,
      fun task htask charger hcharges => .inl (hserved v hv task htask charger hcharges)⟩⟩,
    hserved, hroom⟩
  · refine (length_le_countP (halone charger) fun id hin => ?_).trans (hroom charger)
    obtain ⟨v, hv, hid, task, htask, hcharges⟩ := (hheld charger id).mp hin
    exact ⟨v, hv, hid, task, htask, Task.engages_iff.mpr ⟨hcharges.2, .inl hcharges.1⟩⟩
  · obtain ⟨v, hv, rfl, -⟩ := (hheld charger id).mp hin
    exact List.mem_map_of_mem hv
  · obtain ⟨w, hw, hid, hcharges⟩ := (hheld charger v.id).mp hin
    rwa [← List.inj_on_of_nodup_map hnumbered.nodup hw hv hid]

end Unhindered

/-! ## The fleet in any order -/

/-- What a vehicle tells and how it is left when it finds a plug wherever it needs one. -/
def Unrefused (now : Time) (pair : Vehicle R × Movement) (told : List (TaskEvent R))
    (left : Vehicle R × Movement) : Prop :=
  (∀ event ∈ told, event.unplugged = false) ∧ ∃ pool pool' : ChargerPool R,
    VehicleState.advance now ⟨pair.1, pair.2, pool⟩ = .ok told ⟨left.1, left.2, pool'⟩

/-- A vehicle tells one thing only, whatever the others do. -/
theorem Unrefused.unique {pair : Vehicle R × Movement} {told told' : List (TaskEvent R)}
    {left left' : Vehicle R × Movement} (h : Unrefused now pair told left)
    (h' : Unrefused now pair told' left') : told' = told ∧ left' = left := by
  obtain ⟨hplugged, pool, last, hrun⟩ := h
  obtain ⟨hplugged', pool', last', hrun'⟩ := h'
  have halike : VehicleState.Alike ⟨pair.1, pair.2, pool⟩ ⟨pair.1, pair.2, pool'⟩ := ⟨rfl, rfl⟩
  obtain ⟨htold, hleft⟩ := VehicleState.advance_alike halike hrun hrun' hplugged hplugged'
  exact ⟨htold, Prod.ext hleft.vehicle hleft.movement⟩

/-- A vehicle finds a plug wherever it needs one, and leaves enough of them to the others. -/
theorem Unhindered.exists_unrefused {original : ChargerPool R}
    (h : Unhindered now (a ++ v :: b) pool) (hkeeps : original.Keeps pool) (movement : Movement) :
    ∃ told left pool',
      VehicleState.advance now ⟨v, movement, pool⟩ = .ok told ⟨left.1, left.2, pool'⟩ ∧
      Unrefused now (v, movement) told left ∧ Unhindered now (a ++ left.1 :: b) pool' ∧
        original.Keeps pool' := by
  have hends := @VehicleState.advance_ends R _ Unit Unit now _ _ (Unhindered.steady now original)
    a b () ⟨v, movement, pool⟩ ⟨h, hkeeps⟩
  obtain ⟨told, ⟨v', movement', pool'⟩, hrun, -, _, hnoted, hleft, hkeeps'⟩ := hends.exists_ok
  exact ⟨told, (v', movement'), pool', hrun,
    ⟨TaskEvent.unplugged_of_noted hnoted, pool, pool', hrun⟩, hleft, hkeeps'⟩

/-- So there is one answer for each of some vehicles. -/
theorem Unhindered.exists_answers {pairs : List (Vehicle R × Movement)}
    (h : Unhindered now (pairs.map Prod.fst) pool) :
    ∃ (told : Vehicle R × Movement → List (TaskEvent R))
      (left : Vehicle R × Movement → Vehicle R × Movement),
      ∀ pair ∈ pairs, Unrefused now pair (told pair) (left pair) := by
  have hexists (pair : Vehicle R × Movement) :
      ∃ told left, pair ∈ pairs → Unrefused now pair told left := by
    by_cases hpair : pair ∈ pairs
    · obtain ⟨before, after, rfl⟩ := List.append_of_mem hpair
      rw [List.map_append, List.map_cons] at h
      obtain ⟨told, left, -, -, hunrefused, -⟩ := h.exists_unrefused (.refl _) pair.2
      exact ⟨told, left, fun _ => hunrefused⟩
    · exact ⟨[], pair, fun hin => (hpair hin).elim⟩
  choose told left hunrefused using hexists
  exact ⟨told, left, hunrefused⟩

namespace FleetState

/-- In whatever order vehicles are brought up to an instant, each does what it does by itself. -/
theorem advanceEach_unrefused {order : List (Vehicle R × Movement)} {original : ChargerPool R}
    {told : Vehicle R × Movement → List (TaskEvent R)}
    {left : Vehicle R × Movement → Vehicle R × Movement}
    (h : Unhindered now (a ++ order.map Prod.fst) pool) (hkeeps : original.Keeps pool)
    (halone : ∀ pair ∈ order, Unrefused now pair (told pair) (left pair)) :
    ∃ pool', advanceEach now order pool =
        (order.map fun pair => .ok (told pair), order.map left, pool') ∧
      Unhindered now (a ++ (order.map left).map Prod.fst) pool' ∧ original.Keeps pool' := by
  induction order generalizing a pool with
  | nil => exact ⟨pool, rfl, h, hkeeps⟩
  | cons pair rest ih =>
    obtain ⟨v, movement⟩ := pair
    obtain ⟨events, last, mid, hrun, hfirst, hmid, hkeeps'⟩ := h.exists_unrefused hkeeps movement
    obtain ⟨rfl, rfl⟩ := (halone (v, movement) List.mem_cons_self).unique hfirst
    have hnext : Unhindered now ((a ++ [(left (v, movement)).1]) ++ rest.map Prod.fst) mid := by
      simpa using hmid
    obtain ⟨pool', heach, hlast, hlastKeeps⟩ := ih hnext hkeeps' fun pair hpair =>
      halone pair (List.mem_cons_of_mem _ hpair)
    refine ⟨pool', ?_, by simpa using hlast, hlastKeeps⟩
    simp [advanceEach, Action.outcome, hrun, heach]

/-- With plugs for all charging tasks that are being executed or are to begin by an instant, every
vehicle tells the same and is left the same, and the same vehicles are plugged in, in whatever order
the vehicles are brought up to that instant; and bringing up the fleet is bringing them up in the
order of their numbers. -/
theorem advanceEach_in_any_order {state : FleetState R}
    (hmovements : state.movements.length = state.fleet.size)
    (hnumbered : Numbered state.fleet.vehicles)
    (hvalid : ∀ v ∈ state.fleet.vehicles, v.schedule.validate = .ok ())
    (hsupplied : ∀ v ∈ state.fleet.vehicles, v.schedule.Supplied state.chargers)
    (halone : ∀ charger, (state.chargers.plugged charger).Nodup)
    (hheld : ∀ charger id, id ∈ state.chargers.plugged charger ↔
      ∃ v ∈ state.fleet.vehicles, v.id = id ∧
        ∃ task ∈ v.schedule.tasks, task.ChargesAt charger)
    (hroom : ∀ charger,
      engaged now charger state.fleet.vehicles ≤ state.chargers.plugs charger) :
    let pairs := state.fleet.vehicles.zip state.movements
    ∃ told left chargers,
      advance now state = .ok (pairs.map told).flatten
        ⟨⟨(pairs.map left).map Prod.fst⟩, (pairs.map left).map Prod.snd, chargers⟩ ∧
      ∀ order : List (Vehicle R × Movement), order.Perm pairs → ∃ chargers',
        advanceEach now order state.chargers =
          (order.map fun pair => .ok (told pair), order.map left, chargers') ∧
        ∀ charger, chargers'.occupancy charger = chargers.occupancy charger := by
  intro pairs
  have hfst : pairs.map Prod.fst = state.fleet.vehicles :=
    List.map_fst_zip (Nat.le_of_eq hmovements.symm)
  have hstart : Unhindered now (pairs.map Prod.fst) state.chargers := by
    rw [hfst]
    exact .of_held hnumbered (fun v hv => Schedule.validate_eq_ok_iff.mp (hvalid v hv)) hsupplied
      halone hheld hroom
  obtain ⟨told, left, hunrefused⟩ := hstart.exists_answers
  have hany (order : List (Vehicle R × Movement)) (horder : order.Perm pairs) :
      ∃ chargers', advanceEach now order state.chargers =
          (order.map fun pair => .ok (told pair), order.map left, chargers') ∧
        Unhindered now ((pairs.map left).map Prod.fst) chargers' ∧
        state.chargers.Keeps chargers' := by
    have hperm : Unhindered now ([] ++ order.map Prod.fst) state.chargers :=
      hstart.perm (horder.symm.map Prod.fst)
    obtain ⟨chargers', heach, hlast, hkeeps⟩ := advanceEach_unrefused hperm (.refl _)
      fun pair hpair => hunrefused pair (horder.mem_iff.mp hpair)
    exact ⟨chargers', heach, hlast.perm ((horder.map left).map Prod.fst), hkeeps⟩
  obtain ⟨chargers, heach, hlast, hkeeps⟩ := hany pairs (.refl _)
  refine ⟨told, left, chargers, ?_, fun order horder => ?_⟩
  · refine advance_eq hmovements ?_
    rw [List.map_map]
    exact heach
  · obtain ⟨chargers', heach', hlast', hkeeps'⟩ := hany order horder
    exact ⟨chargers', heach', hlast.occupancy_eq hlast' (hkeeps.symm.trans hkeeps')⟩

/-- Of two vehicles at a charger with two plugs, one goes on charging and the other one begins to,
whichever of them comes first. -/
theorem advanceEach_in_any_order_two_plugs :
    let session (start finish : Nat) (status : TaskStatus) : Task Rat :=
      { (Task.charge ⟨7⟩ ⟨0⟩ (.ofSecs start) (.ofSecs finish)).withEnergy 5 with status := status }
    let vehicle (id : Nat) (task : Task Rat) : Vehicle Rat :=
      ⟨⟨id⟩, ⟨0⟩, task.start, task.finish, 4, none, ⟨[task]⟩⟩
    let fleet : Fleet Rat :=
      ⟨[vehicle 0 (session 0 100 .started), vehicle 1 (session 20 80 .planned)]⟩
    let state : FleetState Rat := ⟨fleet, Movement.ofFleet fleet, ⟨[⟨⟨7⟩, ⟨0⟩, 50, 2, [⟨0⟩]⟩]⟩⟩
    let pairs := state.fleet.vehicles.zip state.movements
    Numbered state.fleet.vehicles ∧
      (advanceEach (.ofSecs 50) pairs.reverse state.chargers).2.2.occupancy ⟨7⟩ =
        ((advance (.ofSecs 50)).outcome state).2.chargers.occupancy ⟨7⟩ ∧
      (advanceEach (.ofSecs 50) pairs.reverse state.chargers).2.2.plugged ⟨7⟩ = [⟨0⟩, ⟨1⟩] := by
  intro session vehicle fleet state pairs
  have hnumbered : Numbered state.fleet.vehicles := by
    unfold Numbered
    decide
  have hvalid : ∀ v ∈ state.fleet.vehicles, v.schedule.validate = .ok () := by decide
  have hsupplied : ∀ v ∈ state.fleet.vehicles, v.schedule.Supplied state.chargers := by
    simp [state, fleet, vehicle, session, Schedule.Supplied, Task.charge, Task.withEnergy,
      ChargerPool.find?]
  have hplugged (charger : ChargerId) :
      state.chargers.plugged charger = if charger = ⟨7⟩ then [⟨0⟩] else [] :=
    ChargerPool.plugged_singleton _ charger
  have halone (charger : ChargerId) : (state.chargers.plugged charger).Nodup := by
    rw [hplugged]
    split <;> simp
  have hheld (charger : ChargerId) (id : VehicleId) : id ∈ state.chargers.plugged charger ↔
      ∃ v ∈ state.fleet.vehicles, v.id = id ∧
        ∃ task ∈ v.schedule.tasks, task.ChargesAt charger := by
    suffices h : charger = ⟨7⟩ ∧ id = ⟨0⟩ ↔ ⟨0⟩ = id ∧ ⟨7⟩ = charger by
      simpa [hplugged, state, fleet, vehicle, session, Task.ChargesAt, Task.charge,
        Task.withEnergy] using h
    constructor <;> exact fun h => ⟨h.2.symm, h.1.symm⟩
  have hroom (charger : ChargerId) : engaged (.ofSecs 50) charger state.fleet.vehicles ≤
      state.chargers.plugs charger := by
    by_cases hcharger : charger = ⟨7⟩
    · rw [hcharger]
      decide
    · have hnone : engaged (.ofSecs 50) charger state.fleet.vehicles = 0 := by
        simp [engaged, Task.engages, state, fleet, vehicle, session, Task.charge, Task.withEnergy,
          TaskKind.docksAt, Ne.symm hcharger]
      omega
  obtain ⟨told, left, chargers, hstep, hany⟩ := advanceEach_in_any_order rfl hnumbered hvalid
    hsupplied halone hheld hroom
  obtain ⟨chargers', heach, hsame⟩ := hany _ (List.reverse_perm _)
  refine ⟨hnumbered, ?_, by decide +kernel⟩
  rw [Action.outcome, hstep, heach]
  exact hsame ⟨7⟩

/-- Plugs for the tasks that begin by an instant are not enough. When time goes back, a task that is
being executed begins later and holds its plug all the same: of the two plugs, one only is left for
the two other vehicles, and the one that comes first takes it. -/
theorem advanceEach_order_matters :
    let session (start finish : Nat) (status : TaskStatus) : Task Rat :=
      { (Task.charge ⟨7⟩ ⟨0⟩ (.ofSecs start) (.ofSecs finish)).withEnergy 5 with status := status }
    let vehicle (id : Nat) (task : Task Rat) : Vehicle Rat :=
      ⟨⟨id⟩, ⟨0⟩, task.start, task.finish, 4, none, ⟨[task]⟩⟩
    let fleet : Fleet Rat :=
      ⟨[vehicle 0 (session 100 200 .started), vehicle 1 (session 0 200 .planned),
        vehicle 2 (session 0 200 .planned)]⟩
    let state : FleetState Rat := ⟨fleet, Movement.ofFleet fleet, ⟨[⟨⟨7⟩, ⟨0⟩, 50, 2, [⟨0⟩]⟩]⟩⟩
    let pairs := state.fleet.vehicles.zip state.movements
    state.movements.length = state.fleet.size ∧ Numbered state.fleet.vehicles ∧
      (∀ v ∈ state.fleet.vehicles, v.schedule.validate = .ok ()) ∧
      (∀ v ∈ state.fleet.vehicles, v.schedule.Supplied state.chargers) ∧
      (∀ charger, (state.chargers.plugged charger).Nodup) ∧
      (∀ charger id, id ∈ state.chargers.plugged charger ↔
        ∃ v ∈ state.fleet.vehicles, v.id = id ∧
          ∃ task ∈ v.schedule.tasks, task.ChargesAt charger) ∧
      (∀ charger, (state.fleet.vehicles.flatMap fun v => v.schedule.tasks).countP (fun task =>
          task.kind.docksAt = some charger ∧ task.status ≠ .performed ∧
            task.start ≤ .ofSecs 50) ≤ state.chargers.plugs charger) ∧
      ((advanceEach (.ofSecs 50) pairs.reverse state.chargers).2.1.reverse.map Prod.fst) ≠
        ((advance (.ofSecs 50)).outcome state).2.fleet.vehicles := by
  intro session vehicle fleet state pairs
  have hplugged (charger : ChargerId) :
      state.chargers.plugged charger = if charger = ⟨7⟩ then [⟨0⟩] else [] :=
    ChargerPool.plugged_singleton _ charger
  refine ⟨rfl, by unfold Numbered; decide, by decide, ?_, fun charger => ?_, fun charger id => ?_,
    fun charger => ?_, by decide +kernel⟩
  · simp [state, fleet, vehicle, session, Schedule.Supplied, Task.charge, Task.withEnergy,
      ChargerPool.find?]
  · rw [hplugged]
    split <;> simp
  · suffices h : charger = ⟨7⟩ ∧ id = ⟨0⟩ ↔ ⟨0⟩ = id ∧ ⟨7⟩ = charger by
      simpa [hplugged, state, fleet, vehicle, session, Task.ChargesAt, Task.charge,
        Task.withEnergy] using h
    constructor <;> exact fun h => ⟨h.2.symm, h.1.symm⟩
  · by_cases hcharger : charger = ⟨7⟩
    · rw [hcharger]
      decide
    · rw [List.countP_eq_zero.mpr]
      · exact Nat.zero_le _
      · simp [state, fleet, vehicle, session, Task.charge, Task.withEnergy, TaskKind.docksAt,
          Ne.symm hcharger]

end FleetState

end DemandTransport
