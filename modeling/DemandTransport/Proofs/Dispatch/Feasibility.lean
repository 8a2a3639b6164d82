import DemandTransport.Proofs.Dispatch.Moves
import DemandTransport.Proofs.Energy.Rates
import DemandTransport.Proofs.Execution.Powering

/-!
# What is planned can be powered

The projection that a plan or a charging session has passed is the outlook of the vehicle once its
tasks have been written: the idle time that is cut off takes its share of the energy, and so does
what is left of it. A vehicle to which a trip or a session has just been given is therefore
feasible.
-/

namespace DemandTransport

namespace Schedule

variable {stay : Task Rat} {tasks : List (Task Rat)} {a node : NodeId} {depart t : Time}

/-- The idle time before an instant takes its share of the energy, which is nothing if there is no
such time. -/
theorem pendingEnergy_partBefore (hlasts : stay.start < stay.finish)
    (hopen : stay.status ≠ .performed) (hdepart : stay.start ≤ depart) :
    pendingEnergy ⟨stay.partBefore depart⟩ = [stay.shareBetween stay.start depart] ∨
      pendingEnergy ⟨stay.partBefore depart⟩ = [] ∧ stay.shareBetween stay.start depart = 0 := by
  obtain ⟨rate, hrate⟩ := Task.exists_drawsAt hlasts
  rw [hrate.shareBetween hlasts]
  unfold Task.partBefore
  split
  next hlater =>
    have hhead : (stay.headUntil depart).status ≠ .performed := hopen
    rw [pendingEnergy_of_open hhead]
    exact .inl (congrArg (fun kwh => [kwh]) (hrate.headUntil hlasts depart))
  next hnow =>
    have hnone : depart.since stay.start = 0 := by
      simp only [Time.since, Time.le_iff, Time.lt_iff] at *
      omega
    exact .inr ⟨rfl, by rw [hnone, Nat.cast_zero, mul_zero]⟩

/-- The idle time behind tasks takes its share of the energy, which is nothing if none remains. -/
theorem pendingEnergy_leftover (hlasts : stay.start < stay.finish)
    (hwaiting : (stay.partFrom depart).status = .planned) (hdepart : stay.start ≤ depart)
    (hleads : Leads a depart tasks node t) (ht : t ≤ stay.finish) (hne : tasks ≠ []) :
    pendingEnergy ⟨leftover (stay.partFrom depart) tasks⟩ = [stay.shareBetween t stay.finish] ∨
      pendingEnergy ⟨leftover (stay.partFrom depart) tasks⟩ = [] ∧
        stay.shareBetween t stay.finish = 0 := by
  have hopen : depart < stay.finish := by
    have hleast := hleads.lt hne
    simp only [Time.le_iff, Time.lt_iff] at *
    omega
  obtain ⟨rate, hrate⟩ := Task.exists_drawsAt hlasts
  have hpart := hrate.partFrom hdepart hopen
  have hbegins := Task.partFrom_start hdepart
  have hleads' : Leads a (stay.partFrom depart).start tasks node t := by rwa [hbegins]
  have hdraws := leftover_drawsAt hpart (by rwa [hbegins, Task.partFrom_finish]) hleads'
    (by rwa [Task.partFrom_finish])
  obtain ⟨front, last, rfl⟩ : ∃ front last, tasks = front ++ [last] :=
    ⟨_, _, (List.dropLast_append_getLast hne).symm⟩
  have hend : t ≤ (stay.partFrom depart).finish := by rwa [Task.partFrom_finish]
  obtain ⟨hall, hremains⟩ := leftover_of_leads hleads hend
  rw [Task.partFrom_finish] at hall hremains
  rw [hrate.shareBetween hlasts]
  by_cases hfull : t = stay.finish
  · have hnone : stay.finish.since stay.finish = 0 := Nat.sub_self _
    rw [hall hfull, hfull]
    exact .inr ⟨rfl, by rw [hnone, Nat.cast_zero, mul_zero]⟩
  · obtain ⟨left, hleft, -, hstatus, hstart, hfinish, -⟩ := hremains hfull
    have henergy : left.energyOrZero = rate * ((left.finish.since left.start : Nat) : Rat) :=
      hdraws left (by simp [hleft])
    rw [hleft, pendingEnergy_of_open (by simp [hstatus, hwaiting]), henergy, hstart, hfinish]
    exact .inl rfl

end Schedule

namespace Vehicle

variable {v v' : Vehicle Rat}

/-- Tasks whose projection is feasible leave the vehicle feasible when they have been written, and
its battery alone. -/
theorem Written.feasible {before tasks : List (Task Rat)} {stay : Task Rat} {depart t : Time}
    {a node : NodeId} (h : Written before stay depart tasks v v') (hvalid : v.schedule.Valid)
    (hleads : Leads a depart tasks node t) (ht : t ≤ stay.finish) (hne : tasks ≠ [])
    (hcapacity : v.WithinCapacity)
    (hprojected : ∀ projection ∈ v.project? depart tasks, projection.isFeasible = true) :
    v'.id = v.id ∧ v'.energy = v.energy ∧ v'.Feasible := by
  have hkept : v'.energy = v.energy := by rw [h.same]
  refine ⟨by rw [h.same], hkept, fun energy henergy => ?_⟩
  rw [hkept] at henergy
  obtain ⟨projection, hproject, hendures⟩ :=
    @endures_of_project? v energy before tasks stay depart henergy h.old h.idle
  have hall := hendures (hprojected projection hproject)
  obtain ⟨last, hlast⟩ : ∃ last, tasks.getLast? = some last :=
    ⟨_, List.getLast?_eq_some_getLast hne⟩
  rw [hlast, Option.map_some, Option.getD_some, (hleads.finish_of_getLast? last hlast).1] at hall
  have hlasts : stay.start < stay.finish := (hvalid.sound stay (by simp [h.old])).lasts
  have hplanned : ∀ task ∈ tasks, task.status = .planned := fun task htask =>
    (hleads.mem task htask).2
  rw [Schedule.eq_of_tasks h.new, Schedule.pendingEnergy_append, Schedule.pendingEnergy_append,
    Schedule.pendingEnergy_append, Schedule.pendingEnergy_of_planned hplanned]
  have hhead : Battery.Endures energy.battery.capacity energy.battery.charge
      (Schedule.pendingEnergy ⟨before⟩ ++ Schedule.pendingEnergy ⟨stay.partBefore depart⟩ ++
        tasks.map Task.energyOrZero ++ [stay.shareBetween t stay.finish]) := by
    rcases Schedule.pendingEnergy_partBefore hlasts h.opened h.begins with hpart | ⟨hpart, hzero⟩
    · rw [hpart]
      simpa using hall
    · rw [hzero] at hall
      rw [hpart]
      simpa using hall.skip_zero (hcapacity energy henergy)
  rcases Schedule.pendingEnergy_leftover hlasts h.waiting h.begins hleads ht hne with
    hrest | ⟨hrest, -⟩
  · rwa [hrest]
  · rw [hrest, List.append_nil]
    exact (Battery.endures_append.mp hhead).1

/-- The tasks of a plan have passed the projection. -/
theorem powered_feasible {depart : Time} {tasks tasks' : List (Task Rat)}
    (h : v.powered depart tasks = .ok tasks') :
    ∀ projection ∈ v.project? depart tasks', projection.isFeasible = true := by
  intro projection hprojection
  unfold powered at h
  split at h
  next hnone =>
    have henergy : v.energy = none := by simpa [profile?] using hnone
    simp [project?, battery?, henergy] at hprojection
  next profile hprofile =>
    dsimp only at h
    split at h
    next projected hprojected =>
      split at h
      next hfeasible =>
        cases h
        cases hprojected.symm.trans hprojection
        exact hfeasible
      next => cases h
    next hnone =>
      cases h
      cases hnone.symm.trans hprojection

/-- A vehicle is feasible when a plan that it has accepted has been written into its schedule. -/
theorem commit_feasible {ctx : DispatchContext Rat} {request : Request} {plan : Insertion Rat}
    (hctx : Dispatcher.Ready ctx.config ctx.router) (hvalid : v.schedule.Valid)
    (hlast : v.schedule.finish < .last) (hcapacity : v.WithinCapacity)
    (heval : v.evaluate ctx request = .ok plan) (hrun : commit plan v = .ok () v') :
    v'.id = v.id ∧ v'.energy = v.energy ∧ v'.Feasible := by
  obtain ⟨_, _, _, _, hwritten, hne, ht, hleads⟩ :=
    (commit_written hctx hvalid hlast heval).of_ok hrun
  have hprojected : ∀ projection ∈ v.project? plan.depart plan.tasks,
      projection.isFeasible = true := by
    obtain ⟨_, _, _, _, _, hplan⟩ := evaluate_ok heval
    exact powered_feasible hplan.powered
  exact hwritten.feasible hvalid hleads ht hne hcapacity hprojected

end Vehicle

/-- A vehicle is feasible when a session that was found for it has been written into its
schedule. -/
theorem ChargingPlanner.session_feasible {planner : ChargingPlanner Rat} {network : Network Rat}
    {router : Router Rat} {now : Time} {pool : ChargerPool Rat} {bookings : List Booking}
    {session : Session Rat} {v v' : Vehicle Rat} (hrouter : router.Sound)
    (hvalid : v.schedule.Valid) (hcapacity : v.WithinCapacity)
    (hfound : planner.sessionFor? network router now pool bookings v = some session)
    (hrun : Vehicle.insertAt session.depart session.tasks v = .ok () v') :
    v'.id = v.id ∧ v'.energy = v.energy ∧ v'.Feasible := by
  obtain ⟨_, _, _, _, _, hwritten, hne, ht, hleads⟩ :=
    (session_written hrouter hvalid hfound).of_ok hrun
  have hprojected : ∀ projection ∈ v.project? session.depart session.tasks,
      projection.isFeasible = true := by
    obtain ⟨_, _, _, _, _, hsession⟩ := sessionFor?_eq_some hfound
    intro projection hprojection
    have hpowered := hsession.powered
    rw [hprojection] at hpowered
    exact hpowered
  exact hwritten.feasible hvalid hleads ht hne hcapacity hprojected

/-! ## Moves -/

namespace Operation

variable {ctx : DispatchContext Rat} {planner : ChargingPlanner Rat} {pool : ChargerPool Rat}
  {coming : List RequestId} {op op' : Operation Rat} {chosen : List VehicleId}

/-- A move keeps batteries and plans in order. -/
theorem Moves.powered (hmove : op.Moves ctx planner pool op')
    (hctx : Dispatcher.Ready ctx.config ctx.router) (h : op.Agrees coming pool)
    (hpowered : Powered chosen op.fleet.vehicles) : Powered chosen op'.fleet.vehicles := by
  have hreplaced {a b : List (Vehicle Rat)} {v v' : Vehicle Rat}
      (hsplit : op.fleet.vehicles = a ++ v :: b)
      (hv' : v'.id = v.id ∧ v'.energy = v.energy ∧ v'.Feasible) :
      Powered chosen (a ++ v' :: b) := by
    rw [hsplit] at hpowered
    obtain ⟨hid, henergy, hfeasible⟩ := hv'
    refine hpowered.replace hid ?_ fun _ => hfeasible
    intro energy hsome
    exact hpowered.capacity v (by simp) energy (henergy ▸ hsome)
  cases hmove with
  | cancel => exact hpowered
  | @trip _ _ a b v v' _ _ _ _ vehicle evaluated committed _ =>
    have hagree := h.split vehicle
    exact hreplaced vehicle (Vehicle.commit_feasible hctx hagree.roster.valid_at.toValid
      hagree.finish_lt (hpowered.capacity v (by simp [vehicle])) evaluated committed)
  | @session a b v v' _ _ vehicle found inserted =>
    exact hreplaced vehicle (ChargingPlanner.session_feasible hctx.router
      (h.split vehicle).roster.valid_at.toValid (hpowered.capacity v (by simp [vehicle])) found
      inserted)

/-- So does a whole sequence of moves. -/
theorem powered_of_moves (hmoves : Relation.ReflTransGen (Moves ctx planner pool) op op')
    (hctx : Dispatcher.Ready ctx.config ctx.router) (h : op.Agrees coming pool)
    (hpowered : Powered chosen op.fleet.vehicles) : Powered chosen op'.fleet.vehicles :=
  keeps_of_moves (P := fun op => Powered chosen op.fleet.vehicles)
    (fun hmove hagree => hmove.powered hctx hagree) hmoves hctx h hpowered

end Operation

end DemandTransport
