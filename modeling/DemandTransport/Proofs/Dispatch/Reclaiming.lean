import Mathlib.Algebra.Order.Ring.Rat
import DemandTransport.Proofs.Dispatch.Feasibility
import DemandTransport.Proofs.Dispatch.Retraction

/-!
# The energy of time that is given back

A vehicle that takes trips, carries them out and has them taken back accounts for each of its tasks
as its model prices it: a drive by its length, anything else by its duration. Time that is given
back is priced anew, as time without driving, and the charge is not followed through it again. It
needs no more than what has been planned in its place if every drive that is given back takes at
least as much as standing does in the same time. A slow drive over a short way takes less, and then
a plan that the battery could carry out can become one that it cannot.
-/

namespace DemandTransport

/-- The change of charge in a second without driving. -/
def EnergyProfile.idleRate (profile : EnergyProfile Rat) : Rat := -profile.auxKw / 3600

theorem EnergyProfile.idleEnergy_eq (profile : EnergyProfile Rat) (secs : Nat) :
    profile.idleEnergy secs = profile.idleRate * (secs : Rat) := by
  change -profile.auxKw * (secs : Rat) / 3600.0 = _
  unfold idleRate
  norm_num
  ring

/-! ## Prices -/

/-- A task accounts for what a model takes for it. Charging is not priced by the model. -/
structure Task.Priced (profile : EnergyProfile Rat) (task : Task Rat) : Prop where
  account : task.energyOrZero = profile.taskEnergy task
  plain : ∀ charger, task.kind ≠ .charge charger

namespace Task

variable {profile : EnergyProfile Rat} {task task' : Task Rat}

theorem taskEnergy_of_not_drive (h : task.kind.isDrive = false) :
    profile.taskEnergy task = profile.idleRate * (task.duration : Rat) := by
  rw [← profile.idleEnergy_eq]
  unfold EnergyProfile.taskEnergy
  cases hkind : task.kind <;> simp_all [TaskKind.isDrive]

/-- What is not a drive is priced by the second. -/
theorem Priced.drawsAt (h : task.Priced profile) (hkind : task.kind.isDrive = false) :
    task.DrawsAt profile.idleRate :=
  h.account.trans (taskEnergy_of_not_drive hkind)

theorem DrawsAt.priced (h : task.DrawsAt profile.idleRate) (hidle : task.isStay = true) :
    task.Priced profile where
  account := h.trans (taskEnergy_of_not_drive (not_isDrive hidle)).symm
  plain charger hkind := by
    obtain ⟨other, hstay⟩ := kind_of_isStay hidle
    cases hstay.symm.trans hkind

/-- The price depends on kind, time and account only. -/
theorem Priced.congr (h : task.Priced profile) (hkind : task'.kind = task.kind)
    (hstart : task'.start = task.start) (hfinish : task'.finish = task.finish)
    (henergy : task'.energy = task.energy) : task'.Priced profile where
  account := by
    have haccount := h.account
    unfold energyOrZero EnergyProfile.taskEnergy duration at *
    rw [henergy, hkind, hstart, hfinish]
    exact haccount
  plain := by
    rw [hkind]
    exact h.plain

end Task

/-- Tasks that follow one another, each of which takes at least what standing does, take at least
that together. -/
theorem Schedule.sum_le_idle {rate : Rat} {first : Task Rat} {rest : List (Task Rat)}
    (hseams : (first :: rest).IsChain Task.Precedes)
    (hsound : ∀ task ∈ first :: rest, task.Sound)
    (hdraws : ∀ task ∈ first :: rest, task.energyOrZero ≤ rate * (task.duration : Rat)) :
    first.start ≤ finish ⟨first :: rest⟩ ∧ ((first :: rest).map Task.energyOrZero).sum ≤
      rate * (((finish ⟨first :: rest⟩).since first.start : Nat) : Rat) := by
  induction rest generalizing first with
  | nil =>
    have hlasts := (hsound first List.mem_cons_self).lasts
    refine ⟨Nat.le_of_lt hlasts, ?_⟩
    simpa [finish, Task.duration] using hdraws first List.mem_cons_self
  | cons next rest ih =>
    obtain ⟨hseam, hchain⟩ := List.isChain_cons_cons.mp hseams
    obtain ⟨hle, hsum⟩ := ih hchain (fun task htask => hsound task (List.mem_cons_of_mem _ htask))
      fun task htask => hdraws task (List.mem_cons_of_mem _ htask)
    have hlasts := (hsound first List.mem_cons_self).lasts
    have hfirst := hdraws first List.mem_cons_self
    have hends : finish ⟨first :: next :: rest⟩ = finish ⟨next :: rest⟩ := by simp [finish]
    have hseconds : (finish ⟨next :: rest⟩).since first.start =
        first.duration + (finish ⟨next :: rest⟩).since next.start := by
      have htime := hseam.time
      simp only [Task.duration, Time.since, Time.le_iff, Time.lt_iff, Time.eq_iff] at *
      omega
    rw [hends, hseconds, List.map_cons, List.sum_cons]
    refine ⟨?_, ?_⟩
    · have htime := hseam.time
      simp only [Time.le_iff, Time.lt_iff, Time.eq_iff] at *
      omega
    · push_cast
      linarith

/-- The tasks in two parts of a valid schedule are different ones. -/
theorem Schedule.Valid.not_mem_of_behind {R : Type} {before behind : List (Task R)} {task : Task R}
    (h : Valid ⟨before ++ behind⟩) (htask : task ∈ behind) : task ∉ before := by
  intro hbefore
  have hlasts := (h.sound task (by simp [htask])).lasts
  have hearlier := (List.pairwise_append.mp h.pairwise_earlier).2.2 task hbefore task htask
  have hends := hearlier.1
  simp only [Time.le_iff, Time.lt_iff] at *
  omega

namespace Vehicle

/-! ## Vehicles that account for what they do -/

/-- A vehicle of a model that accounts for each of its tasks as the model prices it. -/
structure Accounts (profile : EnergyProfile Rat) (v : Vehicle Rat) : Prop where
  valid : v.schedule.ValidOver v.start v.finish
  /-- The horizon ends before the last instant there is. -/
  horizon : v.finish < .last
  /-- It is of the model. -/
  model : v.profile? = some profile
  priced : ∀ task ∈ v.schedule.tasks, task.Priced profile

namespace Accounts

variable {profile : EnergyProfile Rat} {v v' : Vehicle Rat} {request : RequestId}

/-- A new electric vehicle accounts for standing over its horizon. -/
theorem of_electric {id : VehicleId} {node : NodeId} {start finish : Time} {seats : Nat}
    {charge : Rat} (hnew : electric id node start finish seats profile charge = .ok v)
    (hlast : finish < .last) : v.Accounts profile := by
  unfold electric at hnew
  split at hnew
  · cases hnew
  next battery hbattery =>
    dsimp only at hnew
    split at hnew
    next s hs =>
      cases hnew
      have hidle : s.IsNew start finish := ⟨node, .inr ⟨_, hs⟩⟩
      refine ⟨hidle.validOver, hlast, rfl, ?_⟩
      have htasks : s.tasks = [(Task.stay node start finish).withEnergy
          (profile.idleEnergy (finish.since start))] := by
        unfold Schedule.idleWithEnergy Schedule.idle at hs
        split at hs <;> cases hs
        rfl
      rw [htasks]
      rintro task (_ | ⟨_, ⟨⟩⟩)
      exact Task.DrawsAt.priced (profile.idleEnergy_eq _) rfl
    · cases hnew

/-- A plan is accounted for as the model of the vehicle prices it. -/
theorem plan_priced {ctx : DispatchContext Rat} {request : Request} {plan : Insertion Rat}
    (h : v.profile? = some profile) (heval : v.evaluate ctx request = .ok plan) :
    ∀ task ∈ plan.tasks, task.Priced profile := by
  have hpowered {depart : Time} {tasks tasks' : List (Task Rat)}
      (hrun : v.powered depart tasks = .ok tasks') :
      tasks' = tasks.map fun task => task.withEnergy (profile.taskEnergy task) := by
    unfold powered at hrun
    rw [h] at hrun
    dsimp only at hrun
    split at hrun
    · split at hrun <;> cases hrun
      rfl
    · cases hrun
      rfl
  obtain ⟨slot, approach, ride, wait, _, hplan⟩ := evaluate_ok heval
  obtain ⟨-, hwait⟩ := Request.boarding_ok hplan.boards
  intro task htask
  rw [hpowered hplan.powered] at htask
  obtain ⟨plain, hplain, rfl⟩ := List.mem_map.mp htask
  refine ⟨rfl, fun charger hcharge => ?_⟩
  have hkind : plain.kind = .charge charger := hcharge
  simp only [serviceTasks, List.mem_append, List.mem_singleton] at hplain
  rcases hplain with (((happroach | hstay) | rfl) | hride) | rfl
  · simpa [hkind, TaskKind.isDrive] using approach.drives_isDrive plain happroach
  · simpa [hkind, Task.isStay, TaskKind.isStay] using hwait plain hstay
  · cases hkind
  · simpa [hkind, TaskKind.isDrive] using ride.drives_isDrive plain hride
  · cases hkind

/-- A plan that has been written into the schedule is accounted for, and so are the parts of the
idle time that it leaves. -/
theorem commit {ctx : DispatchContext Rat} {request : Request} {plan : Insertion Rat}
    (h : v.Accounts profile) (hctx : Dispatcher.Ready ctx.config ctx.router)
    (heval : v.evaluate ctx request = .ok plan) (hrun : commit plan v = .ok () v') :
    v'.Accounts profile := by
  have hlast : v.schedule.finish < .last := h.valid.ends ▸ h.horizon
  obtain ⟨node, before, stay, t, hwritten, hne, ht, hleads⟩ :=
    (commit_written hctx h.valid.toValid hlast heval).of_ok hrun
  have hplanned := (@commit_replanned Rat _ {} ctx v request plan h.valid heval).of_ok hrun
  have hlasts : stay.start < stay.finish := (h.valid.sound stay (by simp [hwritten.old])).lasts
  have hrate : stay.DrawsAt profile.idleRate :=
    (h.priced stay (by simp [hwritten.old])).drawsAt (Task.not_isDrive hwritten.idle)
  have hopen : plan.depart < stay.finish := by
    have hleast := hleads.lt hne
    simp only [Time.le_iff, Time.lt_iff] at *
    omega
  have hbegins := Task.partFrom_start hwritten.begins
  have hleads' : Leads node (stay.partFrom plan.depart).start plan.tasks request.destination
      t := by rwa [hbegins]
  have hleftover := Schedule.leftover_drawsAt (hrate.partFrom hwritten.begins hopen)
    (by rwa [hbegins, Task.partFrom_finish]) hleads' (by rwa [Task.partFrom_finish])
  rw [hwritten.same]
  refine ⟨hplanned.schedule.valid h.valid, h.horizon, h.model, fun task htask => ?_⟩
  rw [hwritten.new] at htask
  simp only [List.mem_append] at htask
  rcases htask with ((hbefore | hpart) | hnew) | hleft
  · exact h.priced task (by simp [hwritten.old, hbefore])
  · exact (hrate.partBefore hlasts _ task hpart).priced
      (Task.partBefore_isStay hwritten.idle _ task hpart)
  · exact plan_priced h.model heval task hnew
  · exact (hleftover task hleft).priced
      (Schedule.leftover_isStay (Task.partFrom_isStay hwritten.idle _) _ task hleft)

/-- A task that is turned into idle time costs what it did. -/
theorem of_vacate {index : Nat} {s : Schedule Rat} (h : v.Accounts profile)
    (hvacate : v.schedule.vacate index = .ok s) :
    Accounts profile { v with schedule := s } := by
  refine ⟨h.valid.vacate hvacate, h.horizon, h.model, ?_⟩
  obtain ⟨before, old, after, htasks, -, -, hdrive, rfl⟩ := Schedule.vacate_ok hvacate
  have hpriced := h.priced
  rw [htasks] at hpriced
  have hrate := (hpriced old (by simp)).drawsAt hdrive
  exact forall_mem_replace hpriced (Task.DrawsAt.priced hrate rfl)

/-- Time that is given back is accounted for as the model prices it. -/
theorem retract (h : v.Accounts profile) (hretracted : v.Retracted v') : v'.Accounts profile := by
  cases hretracted with
  | vacated hboarding halighting hsame =>
    rw [hsame]
    exact (h.of_vacate hboarding).of_vacate halighting
  | @reclaimed before rest first htasks hplanned hsame =>
    have hfrom := @Schedule.retractFrom_append _ before _ _ hplanned
      (v.profile?.map fun profile => profile.idleEnergy (v.schedule.finish.since first.start))
    rw [← Schedule.eq_of_tasks htasks] at hfrom
    rw [hsame]
    refine ⟨h.valid.retractFrom hfrom, h.horizon, h.model, fun task htask => ?_⟩
    rcases List.mem_append.mp htask with hbefore | hidle
    · exact h.priced task (by simp [htasks, hbefore])
    · rw [List.mem_singleton.mp hidle, h.model]
      exact Task.DrawsAt.priced (profile.idleEnergy_eq _) rfl

/-- What execution does to a task costs nothing. -/
theorem beat {now : Time} {pool pool' : ChargerPool Rat} {event : TaskEvent Rat}
    (h : v.Accounts profile) (hbeat : Beat now v pool event v' pool') : v'.Accounts profile := by
  obtain ⟨before, after, task, task', htasks, hdone, hbecomes, -, hvehicle, -, hplugging,
    hpowering, -⟩ := hbeat
  have hpriced := h.priced
  rw [htasks] at hpriced
  have hold := hpriced task (by simp)
  have hvalid := h.valid
  rw [Schedule.eq_of_tasks htasks] at hvalid
  have hkept : v'.profile? = v.profile? ∧ task'.energy = task.energy := by
    have hactivity := hplugging.activity_eq hold.plain
    generalize event.phase = phase at hpowering
    generalize event.activity = activity at hpowering hactivity
    cases hpowering with
    | kept hbattery haccount => exact ⟨by rw [profile?, profile?, hbattery], haccount⟩
    | forfeited _ => cases hkind : task.kind <;> rw [hkind] at hactivity <;> cases hactivity
    | used hbattery haccount =>
      refine ⟨?_, haccount⟩
      rw [profile?, profile?, hbattery]
      unfold applyEnergy
      split <;> simp_all
  refine ⟨?_, hvehicle.finish ▸ h.horizon, hkept.1.trans h.model, ?_⟩
  · rw [Schedule.eq_of_tasks hvehicle.tasks, hvehicle.start, hvehicle.finish]
    exact hvalid.becomes hdone hbecomes
  · rw [hvehicle.tasks]
    exact forall_mem_replace hpriced
      (hold.congr hbecomes.kind hbecomes.start hbecomes.finish hkept.2)

/-- A vehicle that accounts for what it does goes on to do so while its schedule is carried out. -/
theorem advance {state state' : VehicleState Rat} {now : Time} {events : List (TaskEvent Rat)}
    (h : state.vehicle.Accounts profile)
    (hrun : VehicleState.advance now state = .ok events state') :
    state'.vehicle.Accounts profile := by
  have hsteady : Steady now (fun (_ : Unit) (_ : TaskEvent Rat) => (.ok () : Except Unit Unit))
      fun vehicles _ _ => ∀ v ∈ vehicles, v.Accounts profile :=
    { ready := fun hall v hv =>
        ⟨(hall v hv).valid.toValid.inSequence, fun task htask _ charger hkind =>
          ((hall v hv).priced task htask).plain charger hkind |>.elim⟩
      beat := fun {a v b} _ _ _ _ _ hall hbeat =>
        ⟨(), rfl, forall_mem_replace hall ((hall v (by simp)).beat hbeat)⟩ }
  have halone : ∀ other ∈ [] ++ state.vehicle :: [], other.Accounts profile := by simpa using h
  have hends := @VehicleState.advance_ends Rat _ _ _ now _ _ hsteady [] [] () state halone
  obtain ⟨-, -, -, hall⟩ := hends.of_ok hrun
  exact hall _ (by simp)

end Accounts

/-! ## Taking trips back -/

variable {profile : EnergyProfile Rat} {v v' : Vehicle Rat}

/-- A feasible vehicle of a model is feasible after a trip has been taken back, if no drive that has
been given up takes less than standing for the same time. -/
theorem Retracted.feasible (hretracted : v.Retracted v') (h : v.Accounts profile)
    (hfeasible : v.Feasible)
    (hdrives : ∀ task ∈ v.schedule.tasks, task ∉ v'.schedule.tasks → task.kind.isDrive = true →
      profile.taskEnergy task ≤ profile.idleEnergy task.duration) :
    v'.Feasible := by
  cases hretracted with
  | vacated hboarding halighting hsame =>
    have hkeeps {index : Nat} {s t : Schedule Rat} (hvacate : s.vacate index = .ok t) :
        t.pendingEnergy = s.pendingEnergy := by
      obtain ⟨before, task, after, htasks, -, -, -, rfl⟩ := Schedule.vacate_ok hvacate
      rw [Schedule.eq_of_tasks htasks]
      simp only [Schedule.pendingEnergy_eq, List.filterMap_append, List.filterMap_cons]
      rfl
    rw [hsame]
    intro energy henergy
    rw [hkeeps halighting, hkeeps hboarding]
    exact hfeasible energy henergy
  | @reclaimed before rest first htasks hplanned hsame =>
    have hvalid := h.valid.toValid
    rw [Schedule.eq_of_tasks htasks] at hvalid
    have hgiven : ∀ task ∈ first :: rest, task.Sound := fun task htask =>
      hvalid.sound task (List.mem_append_right _ htask)
    have hdraws : ∀ task ∈ first :: rest,
        task.energyOrZero ≤ profile.idleRate * (task.duration : Rat) := by
      intro task htask
      have hmem : task ∈ v.schedule.tasks := htasks ▸ List.mem_append_right _ htask
      have hprice := h.priced task hmem
      cases hdrive : task.kind.isDrive with
      | false => exact (hprice.drawsAt hdrive).le
      | true =>
        have hgone : task ∉ v'.schedule.tasks := by
          rw [hsame]
          intro hstays
          rcases List.mem_append.mp hstays with hbefore | hidle
          · exact hvalid.not_mem_of_behind htask hbefore
          · rw [List.mem_singleton.mp hidle] at hdrive
            cases hdrive
        rw [← profile.idleEnergy_eq, hprice.account]
        exact hdrives task hmem hgone hdrive
    have hsum := (Schedule.sum_le_idle (List.isChain_append.mp hvalid.seams).2.1 hgiven hdraws).2
    have hends : v.schedule.finish = Schedule.finish ⟨first :: rest⟩ := by
      rw [Schedule.eq_of_tasks htasks]
      simp [Schedule.finish, List.getLast?_append, List.getLast?_cons]
    rw [← hends, ← profile.idleEnergy_eq] at hsum
    intro energy henergy
    rw [hsame] at henergy ⊢
    have hall := hfeasible energy henergy
    rw [Schedule.eq_of_tasks htasks, Schedule.pendingEnergy_append,
      Schedule.pendingEnergy_of_planned hplanned, Battery.endures_append] at hall
    rw [Schedule.pendingEnergy_append, Schedule.pendingEnergy_of_open (by rintro ⟨⟩),
      Battery.endures_append, h.model]
    exact ⟨hall.1, hall.2.single (by simp) hsum⟩

end Vehicle

/-- What can happen to a vehicle that is on its own. With its state comes the instant up to which
its schedule has been carried out. -/
inductive VehicleState.Happens :
    VehicleState Rat × Time → VehicleState Rat × Time → Prop where
  /-- A plan that the vehicle has made for a request is written into its schedule. -/
  | trip {state : VehicleState Rat} {now : Time} {ctx : DispatchContext Rat} {request : Request}
    {plan : Insertion Rat} {v' : Vehicle Rat} (ready : Dispatcher.Ready ctx.config ctx.router)
    (evaluated : state.vehicle.evaluate ctx request = .ok plan)
    (committed : Vehicle.commit plan state.vehicle = .ok () v') :
    Happens (state, now) ({ state with vehicle := v' }, now)
  /-- The schedule is carried out up to an instant. -/
  | execution {state state' : VehicleState Rat} {now later : Time} {events : List (TaskEvent Rat)}
    (order : now ≤ later) (advanced : advance later state = .ok events state') :
    Happens (state, now) (state', later)
  /-- A request is taken back. -/
  | retraction {state : VehicleState Rat} {now : Time} {request : RequestId} {v' : Vehicle Rat}
    (retracted : Vehicle.retract request state.vehicle = .ok () v') :
    Happens (state, now) ({ state with vehicle := v' }, now)

namespace Vehicle

theorem Accounts.happens {before after : VehicleState Rat × Time}
    (hstep : VehicleState.Happens before after) (h : before.1.vehicle.Accounts profile) :
    after.1.vehicle.Accounts profile := by
  cases hstep with
  | trip ready evaluated committed => exact h.commit ready evaluated committed
  | execution _ advanced => exact h.advance advanced
  | retraction retracted => exact h.retract (retract_ok retracted)

theorem Accounts.of_happened {before after : VehicleState Rat × Time}
    (hsteps : Relation.ReflTransGen VehicleState.Happens before after)
    (h : before.1.vehicle.Accounts profile) : after.1.vehicle.Accounts profile := by
  induction hsteps with
  | refl => exact h
  | tail _ hstep ih => exact ih.happens hstep

variable {id : VehicleId} {node : NodeId} {start finish t now : Time} {seats : Nat} {charge : Rat}
  {movement : Movement} {pool : ChargerPool Rat} {state : VehicleState Rat} {request : RequestId}

/-- An electric vehicle that is feasible, whatever has happened to it since it was new, is feasible
after a request has been taken back, if no drive that is given up takes less energy than standing
for the same time. -/
theorem retract_feasible (hnew : electric id node start finish seats profile charge = .ok v)
    (hlast : finish < .last)
    (hreached : Relation.ReflTransGen VehicleState.Happens (⟨v, movement, pool⟩, t) (state, now))
    (hfeasible : state.vehicle.Feasible) (hrun : retract request state.vehicle = .ok () v')
    (hdrives : ∀ task ∈ state.vehicle.schedule.tasks, task ∉ v'.schedule.tasks →
      task.kind.isDrive = true → profile.taskEnergy task ≤ profile.idleEnergy task.duration) :
    v'.Feasible :=
  (retract_ok hrun).feasible (.of_happened hreached (.of_electric hnew hlast)) hfeasible hdrives

end Vehicle

/-- Three stops: to the second one leads a motorway, from there to the third one a kilometre that
takes longer than an hour. -/
def Network.threeStops : Network Rat :=
  ⟨#[⟨0, 0⟩, ⟨0, 0⟩, ⟨0, 0⟩], #[⟨⟨0⟩, ⟨1⟩, 30000, 900000⟩, ⟨⟨1⟩, ⟨2⟩, 1000, 4500000⟩],
    #[0, 1, 2, 2], by decide, by decide⟩

namespace Vehicle

/-- How a new vehicle fares that accepts a request, is brought up to an instant and has the request
taken back, can be computed. -/
theorem exists_retraction (profile : EnergyProfile Rat) (charge : Rat) (finish : Time)
    (network : Network Rat) (request : Request) (check : Vehicle Rat → Vehicle Rat → Bool)
    (h : ((electric ⟨0⟩ ⟨0⟩ .zero finish 4 profile charge).toOption.bind fun v =>
      (v.evaluate ⟨network, LeastTime.route, {}, .zero⟩ request).toOption.bind fun plan =>
      ((commit plan).after? v).bind fun w =>
      ((VehicleState.advance .zero).after? ⟨w, .stationary ⟨0⟩ .zero, ⟨[]⟩⟩).bind fun state =>
      ((retract request.id).after? state.vehicle).map fun v' => check state.vehicle v') =
        some true) :
    ∃ v state v', electric ⟨0⟩ ⟨0⟩ .zero finish 4 profile charge = .ok v ∧
      Relation.ReflTransGen VehicleState.Happens (⟨v, .stationary ⟨0⟩ .zero, ⟨[]⟩⟩, .zero)
        (state, .zero) ∧
      retract request.id state.vehicle = .ok () v' ∧ check state.vehicle v' = true := by
  simp only [Option.bind_eq_some_iff, Option.map_eq_some_iff, Action.after?_eq_some,
    Action.toOption_eq_some] at h
  obtain ⟨v, hnew, plan, hplan, w, ⟨⟨⟩, hcommit⟩, state, ⟨events, hadvance⟩, v', ⟨⟨⟩, hretract⟩,
    hcheck⟩ := h
  refine ⟨v, state, v', hnew, ?_, hretract, hcheck⟩
  have htrip : VehicleState.Happens (⟨v, .stationary ⟨0⟩ .zero, ⟨[]⟩⟩, .zero)
      (⟨w, .stationary ⟨0⟩ .zero, ⟨[]⟩⟩, .zero) :=
    .trip ⟨LeastTime.route_sound, Nat.succ_ne_zero _, Nat.succ_ne_zero _⟩ hplan hcommit
  exact (Relation.ReflTransGen.single htrip).tail (.execution (Nat.le_refl _) hadvance)

/-- A trip is given up while the vehicle is on its way to the passenger, whose ride would have taken
more than standing. -/
theorem retract_feasible_threeStops :
    let profile : EnergyProfile Rat := ⟨60, ⟨"flat", ⟨0, 1⟩, ⟨0, 1⟩, ⟨1, 1⟩, ⟨1, 1⟩⟩, 0.1, 0.05⟩
    ∃ v state v', electric ⟨0⟩ ⟨0⟩ .zero (.ofSecs 9000) 4 profile 10 = .ok v ∧
      Relation.ReflTransGen VehicleState.Happens (⟨v, .stationary ⟨0⟩ .zero, ⟨[]⟩⟩, .zero)
        (state, .zero) ∧
      state.vehicle.Feasible ∧ state.vehicle.schedule.size = 5 ∧
      retract ⟨0⟩ state.vehicle = .ok () v' ∧ v'.Feasible ∧ v'.schedule.size = 2 := by
  intro profile
  obtain ⟨v, state, v', hnew, hreached, hrun, hcheck⟩ :=
    exists_retraction profile 10 (.ofSecs 9000) .threeStops ⟨⟨0⟩, ⟨0⟩, ⟨1⟩, ⟨2⟩, .zero, none⟩
      (fun v v' => decide (v.Feasible ∧ v.schedule.size = 5 ∧ v'.schedule.size = 2 ∧
        ∀ task ∈ v.schedule.tasks, task.kind.isDrive = true →
          profile.taskEnergy task ≤ profile.idleEnergy task.duration)) (by decide +kernel)
  obtain ⟨hfeasible, hbefore, hafter, hdrives⟩ := of_decide_eq_true hcheck
  exact ⟨v, state, v', hnew, hreached, hfeasible, hbefore, hrun,
    retract_feasible hnew (by decide +kernel) hreached hfeasible hrun
      fun task htask _ => hdrives task htask, hafter⟩

/-- Where the ride takes less than standing, the battery can carry out a plan with the trip, and not
the one that is left without it. -/
theorem retract_infeasible_threeStops :
    let profile : EnergyProfile Rat := ⟨60, ⟨"flat", ⟨0, 1⟩, ⟨0, 1⟩, ⟨1, 1⟩, ⟨1, 1⟩⟩, 0.1, 4⟩
    ∃ v state v', electric ⟨0⟩ ⟨0⟩ .zero (.ofSecs 9000) 4 profile 10 = .ok v ∧
      Relation.ReflTransGen VehicleState.Happens (⟨v, .stationary ⟨0⟩ .zero, ⟨[]⟩⟩, .zero)
        (state, .zero) ∧
      state.vehicle.Feasible ∧ retract ⟨0⟩ state.vehicle = .ok () v' ∧ ¬v'.Feasible := by
  intro profile
  obtain ⟨v, state, v', hnew, hreached, hrun, hcheck⟩ :=
    exists_retraction profile 10 (.ofSecs 9000) .threeStops ⟨⟨0⟩, ⟨0⟩, ⟨1⟩, ⟨2⟩, .zero, none⟩
      (fun v v' => decide (v.Feasible ∧ ¬v'.Feasible)) (by decide +kernel)
  obtain ⟨hfeasible, hinfeasible⟩ := of_decide_eq_true hcheck
  exact ⟨v, state, v', hnew, hreached, hfeasible, hrun, hinfeasible⟩

end Vehicle

end DemandTransport
