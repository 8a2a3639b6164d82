import DemandTransport.Proofs.Dispatch.Service
import DemandTransport.Proofs.Simulation.Calls

/-!
# Registry and schedules never disagree

In a simulation that was built from new vehicles, whatever is submitted, withdrawn, executed and
dispatched in whatever order and with whatever success, a request that is planned or performed has
one pickup and one dropoff in the schedules of all vehicles. Both are in the schedule of its
vehicle, with a drive between them at most, and are over as far as the registry has noted it. No
other request is in any schedule.
-/

namespace DemandTransport

variable {R ω : Type} [Scalar R] {coming : List RequestId}

/-- What holds of a simulation at the begin of a step. -/
structure Simulation.InOrder (coming : List RequestId) (sim : Simulation R) : Prop where
  equipped : sim.Equipped
  /-- Every vehicle has a place. -/
  movements : sim.movements.length = sim.fleet.size
  /-- The vehicles and the registry agree. -/
  agreement : Agreement coming sim.fleet.vehicles sim.chargers sim.requests

/-- What dispatching looks at. -/
def Simulation.context (sim : Simulation R) : DispatchContext R :=
  ⟨sim.network, sim.router, sim.dispatcher.config, sim.now⟩

/-- What dispatching changes. -/
def Simulation.operation (sim : Simulation R) : Operation R := ⟨sim.fleet, sim.requests⟩

/-- A request cannot be withdrawn: it is unknown or final, or its passenger has begun to board. -/
inductive Simulation.Refuses (sim : Simulation R) (id : RequestId) : Prop where
  | unknown (absent : sim.requests.find? id = none) : Refuses sim id
  | final {entry : RequestEntry} (found : sim.requests.find? id = some entry)
    (closed : entry.status.isFinal = true) : Refuses sim id
  | boarding {entry : RequestEntry} (found : sim.requests.find? id = some entry)
    (planned : entry.status = .planned) (begun : Boarding sim.fleet.vehicles id) : Refuses sim id

omit [Scalar R] in
/-- An unplanned request can be withdrawn. -/
theorem Simulation.Refuses.status_ne {sim : Simulation R} {id : RequestId} {entry : RequestEntry}
    (h : sim.Refuses id) (hfind : sim.requests.find? id = some entry) :
    entry.status ≠ .unplanned := by
  intro hstatus
  cases h with
  | unknown habsent => simp [habsent] at hfind
  | final hfound hclosed =>
    cases hfind.symm.trans hfound
    simp [hstatus, RequestStatus.isFinal] at hclosed
  | boarding hfound hplanned _ =>
    cases hfind.symm.trans hfound
    simp [hstatus] at hplanned

omit [Scalar R] in
/-- A planned one can be until its passenger begins to board. -/
theorem Simulation.Refuses.boarding_of_planned {sim : Simulation R} {id : RequestId}
    {entry : RequestEntry} (h : sim.Refuses id) (hfind : sim.requests.find? id = some entry)
    (hstatus : entry.status = .planned) : Boarding sim.fleet.vehicles id := by
  cases h with
  | unknown habsent => simp [habsent] at hfind
  | final hfound hclosed =>
    cases hfind.symm.trans hfound
    simp [hstatus, RequestStatus.isFinal] at hclosed
  | boarding _ _ hbegun => exact hbegun

/-- The trip of a request, if it has one, is taken out of the schedule of its vehicle. -/
inductive Simulation.TakesBack (sim : Simulation R) (id : RequestId) (entry : RequestEntry) :
    Fleet R → Prop where
  | unplanned (status : entry.status = .unplanned) : TakesBack sim id entry sim.fleet
  | planned {a b : List (Vehicle R)} {v v' : Vehicle R} (status : entry.status = .planned)
    (split : sim.fleet.vehicles = a ++ v :: b) (vehicle : entry.vehicle = some v.id)
    (run : Vehicle.retract id v = .ok () v') (spares : v.schedule.Spares id v'.schedule) :
    TakesBack sim id entry ⟨a ++ v' :: b⟩

omit [Scalar R] in
theorem Simulation.Equipped.ready {sim : Simulation R} (h : sim.Equipped) :
    Dispatcher.Ready sim.context.config sim.context.router :=
  ⟨h.router, h.pickup, h.dropoff⟩

namespace Simulation.InOrder

variable {sim : Simulation R}

/-- Beats keep vehicles and registry in agreement. -/
theorem steady (now : Time) :
    Steady now (fun requests event => registryChange event requests)
      (Agreement coming (R := R)) where
  ready h v hv := ⟨(h.roster.valid v hv).toValid.inSequence, h.roster.supplied v hv⟩
  beat h hbeat := by
    obtain ⟨registry', hnoted, -, hagree⟩ := h.beat hbeat
    exact ⟨registry', hnoted, hagree⟩

/-- Schedules are executed, and everything that happens can be noted. -/
theorem execute (h : sim.InOrder coming) :
    (Simulation.execute sim.now).Ends sim
      (fun events sim' => (Simulation.apply events).Ends sim'
        (fun _ s => s.InOrder coming ∧ s.arrivals = sim.arrivals) fun _ _ => False)
      fun _ _ => False := by
  refine (execute_ends (steady sim.now) h.movements h.agreement).mono ?_ fun _ _ hfail => hfail
  rintro events sim' ⟨fleet, movements, chargers, requests, rfl, hmovements, -, hnoted, hagree⟩
  refine Action.Ends.mono (apply_ends hnoted) ?_ fun _ _ hfail => hfail
  rintro - s rfl
  exact ⟨⟨h.equipped.congr rfl rfl, hmovements, hagree⟩, rfl⟩

/-- A dispatch cycle does not fail, and it is a sequence of moves. -/
theorem dispatch_moves (h : sim.InOrder coming) :
    dispatchCycle.Ends sim
      (fun _ s => ∃ op stats,
        Relation.ReflTransGen (Operation.Moves sim.context sim.planner sim.chargers)
          sim.operation op ∧
        s = { sim with fleet := op.fleet, requests := op.requests, stats := stats })
      fun _ _ => False := by
  have hready := h.equipped.ready
  have hagrees : sim.operation.Agrees coming sim.chargers := h.agreement
  have hcycle : (sim.dispatcher.runCycle sim.network sim.router sim.now).Ends sim.operation
      (fun _ op => (sim.planner.plan sim.network sim.router sim.now sim.chargers).Ends op.fleet
        (fun _ fleet =>
          Relation.ReflTransGen (Operation.Moves sim.context sim.planner sim.chargers)
            sim.operation ⟨fleet, op.requests⟩) fun _ _ => False)
      fun _ _ => False := by
    refine (Dispatcher.runCycle_ends sim.planner hready hagrees).mono ?_ fun _ _ hfail => hfail
    intro _ op hmoves
    have hop : op.Agrees coming sim.chargers := Operation.agrees_of_moves hmoves hready hagrees
    exact (ChargingPlanner.plan_ends sim.context hready hop).mono
      (fun _ _ hlater => hmoves.trans hlater) fun _ _ hfail => hfail
  have hends := @dispatchCycle_ends R _ sim (fun _ fleet requests =>
    Relation.ReflTransGen (Operation.Moves sim.context sim.planner sim.chargers) sim.operation
      ⟨fleet, requests⟩) (fun _ _ => False) hcycle
  refine hends.mono ?_ ?_
  · rintro report s ⟨fleet, requests, hmoves, rfl⟩
    exact ⟨⟨fleet, requests⟩, _, hmoves, rfl⟩
  · rintro - s ⟨fleet, requests, hfail, -⟩
    exact hfail

/-- A dispatch cycle keeps vehicles and registry in agreement. -/
theorem dispatch (h : sim.InOrder coming) :
    dispatchCycle.Ends sim (fun _ s => s.InOrder coming ∧ s.arrivals = sim.arrivals)
      fun _ _ => False := by
  refine h.dispatch_moves.mono ?_ fun _ _ hfail => hfail
  rintro - s ⟨op, stats, hmoves, rfl⟩
  have hsize : op.fleet.size = sim.fleet.size := Operation.size_of_moves hmoves
  exact ⟨⟨h.equipped.congr rfl rfl, h.movements.trans hsize.symm,
    Operation.agrees_of_moves hmoves h.equipped.ready h.agreement⟩, rfl⟩

omit [Scalar R] in
/-- The clock moves on. -/
theorem tick (h : sim.InOrder coming) :
    Simulation.tick.Ends sim (fun _ s => s.InOrder coming ∧ s.arrivals = sim.arrivals)
      fun _ _ => False := by
  simp only [Simulation.tick, count, Action.ends_bind, Action.ends_modify]
  exact ⟨⟨h.equipped.congr rfl rfl, h.movements, h.agreement⟩, trivial⟩

omit [Scalar R] in
/-- Registering a request keeps vehicles and registry in agreement. -/
theorem release {later : List RequestId} {request : Request} (h : sim.InOrder coming)
    (hlater : ∀ id ∈ later, id ∈ coming ∧ id ≠ request.id) {fail : Simulation R → Prop}
    (hfail : ∀ e, sim.requests.submit request = .error e → fail sim) :
    (Simulation.release request).Ends sim
      (fun _ s => s.InOrder later ∧ s.arrivals = sim.arrivals) fun _ s => fail s := by
  refine release_ends (fun requests hsubmit => ?_) hfail
  exact ⟨⟨h.equipped.congr rfl rfl, h.movements, h.agreement.submit hsubmit hlater⟩, rfl⟩

/-- A request is cancelled, after it has been taken out of the schedule of its vehicle if it was
planned, unless withdrawing it is refused, which changes nothing. -/
theorem withdraw_ends (h : sim.InOrder coming) (id : RequestId) (why : String) :
    (Simulation.withdraw id why).Ends sim
      (fun _ s => ¬sim.Refuses id ∧ ∃ entry fleet requests, sim.requests.find? id = some entry ∧
        sim.requests.Becomes requests
          { entry with status := .cancelled (.withdrawn why), cancelledAt := some sim.now } ∧
        sim.TakesBack id entry fleet ∧ Agreement coming fleet.vehicles sim.chargers requests ∧
        s = { sim with
          fleet := fleet, requests := requests
          stats := { sim.stats with cancelled := sim.stats.cancelled + 1 } })
      fun _ s => sim.Refuses id ∧ s = sim := by
  simp only [Simulation.withdraw, Simulation.entry, Registry.get, Action.ends_bind, Action.ends_ask]
  cases hfind : sim.requests.find? id with
  | none => exact ⟨.unknown hfind, trivial⟩
  | some entry =>
    dsimp only [Except.mapError]
    split
    next hstatus =>
      obtain ⟨requests', hmark, hbecomes, hagree⟩ :=
        h.agreement.cancel hfind hstatus (.withdrawn why) sim.now
      simp only [onRequests, count, Action.ends_bind, Action.ends_get, Action.ends_mapError,
        Action.ends_within, Registry.InPlace.markCancelled_eq, Action.ends_change, hmark,
        Action.ends_modify]
      refine ⟨fun hrefuses => ?_, entry, sim.fleet, requests', rfl, hbecomes, .unplanned hstatus,
        hagree, rfl⟩
      exact hrefuses.status_ne hfind hstatus
    next vehicle hstatus hvehicle =>
      obtain ⟨a, v, b, hsplit, rfl, hlength, -⟩ :=
        h.agreement.exists_vehicle hfind (.inl hstatus) hvehicle
      have hretract :=
        (hsplit ▸ h.agreement).retract hfind hstatus hvehicle (.withdrawn why) sim.now
      rw [Action.ends_bind, retract_ends hsplit hlength]
      refine hretract.with_run.mono ?_ ?_
      · rintro ⟨⟩ v' ⟨⟨hwaits, hspares, requests', hmark, hbecomes, hagree⟩, hrun⟩
        simp only [onRequests, count, Action.ends_bind, Action.ends_get, Action.ends_mapError,
          Action.ends_within, Registry.InPlace.markCancelled_eq, Action.ends_change, Simulation.now,
          Action.ends_modify]
        rw [Simulation.now] at hmark
        rw [hmark]
        refine ⟨fun hrefuses => ?_, entry, ⟨a ++ v' :: b⟩, requests', rfl, hbecomes,
          .planned hstatus hsplit hvehicle hrun hspares, hagree, rfl⟩
        exact hwaits (hsplit ▸ hrefuses.boarding_of_planned hfind hstatus)
      · rintro - v' ⟨hboarding, rfl⟩
        exact ⟨.boarding hfind hstatus (hsplit ▸ hboarding), by rw [← hsplit]⟩
    next hnot hstray =>
      refine ⟨.final hfind ?_, rfl⟩
      rcases h.agreement.sound.open_or_final hfind with hopen | hfinal
      · rcases hopen with ⟨hstatus, -⟩ | ⟨hstatus, hvehicle⟩
        · exact (hnot hstatus).elim
        · obtain ⟨vehicle, hvehicle⟩ := Option.isSome_iff_exists.mp hvehicle
          exact (hstray vehicle hstatus hvehicle).elim
      · rcases hfinal with ⟨hstatus, -⟩ | ⟨reason, hstatus⟩ <;> rw [hstatus] <;> rfl

/-- Withdrawing a request keeps vehicles and registry in agreement. -/
theorem withdraw (h : sim.InOrder coming) (id : RequestId) (why : String) :
    (Simulation.withdraw id why).Ends sim
      (fun _ s => s.InOrder coming ∧ s.arrivals = sim.arrivals) fun _ s => s = sim := by
  refine (h.withdraw_ends id why).mono ?_ fun _ _ hs => hs.2
  rintro - s ⟨-, entry, fleet, requests, -, -, hfleet, hagree, rfl⟩
  refine ⟨⟨h.equipped.congr rfl rfl, h.movements.trans ?_, hagree⟩, rfl⟩
  cases hfleet with
  | unplanned => rfl
  | planned _ hsplit => simp [Fleet.size, hsplit]

omit [Scalar R] in
/-- The requests to come do not matter. -/
theorem setArrivals (h : sim.InOrder coming) (arrivals : List Request) :
    InOrder coming { sim with arrivals := arrivals } :=
  ⟨h.equipped.congr rfl rfl, h.movements, h.agreement⟩

/-- A step keeps vehicles and registry in agreement, even if it fails. -/
theorem phased : Phased (InOrder [] (R := R)) (InOrder []) (InOrder []) fun _ => True where
  release sim _ h := by
    refine releaseDue_ends (Q := fun _ s => s.InOrder []) (fun request rest s hs _ => ?_)
      (fun arrivals s _ hs => hs.setArrivals arrivals) h
    exact ((hs.setArrivals rest).release (by simp) fun _ _ => hs.setArrivals rest).mono
      (fun _ _ hs' => hs'.1) fun _ _ hfail => hfail
  execute sim _ h := by
    refine h.execute.mono (fun events s hs => ⟨fun _ _ => trivial, ?_⟩) fun _ _ hfail => hfail.elim
    exact hs.mono (fun _ _ hs => hs.1) fun _ _ hfail => hfail.elim
  dispatch sim _ h := h.dispatch.mono (fun _ _ hs => hs.1) fun _ _ hfail => hfail.elim
  tick sim _ h := h.tick.mono (fun _ _ hs => hs.1) fun _ _ hfail => hfail.elim

/-- So does every call. -/
theorem lasting : Lasting (InOrder [] (R := R)) (InOrder []) fun _ => True where
  toPhased := phased
  submit request sim _ h := by
    refine submit_ends (fun _ => ?_) (h.setArrivals _) h
    exact (h.release (by simp) fun _ _ => h).mono (fun _ _ hs => hs.1) fun _ _ hs => hs
  withdraw id why sim _ h :=
    (h.withdraw id why).mono (fun _ _ hs => hs.1) fun _ s hs => by rw [hs]; exact h
  byHand sim _ h := h.dispatch.mono (fun _ _ hs => hs.1) fun _ _ hfail => hfail.elim

theorem performAll {observer : Observer R ω} {state : Observed R ω} (h : state.sim.InOrder [])
    (calls : List Call) : (Call.performAll observer calls state).sim.InOrder [] :=
  lasting.performAll h calls trivial

/-- A new simulation is in order. -/
theorem of_build {scenario : Scenario R} (hnew : scenario.IsNew)
    (hhorizon : ∀ v ∈ scenario.fleet.vehicles, v.finish < .last)
    (h : scenario.build = .ok sim) (coming : List RequestId) : sim.InOrder coming := by
  have hbegins := scenario.build_ok hnew h
  refine ⟨hbegins.equipped, hbegins.movements, ?_⟩
  rw [hbegins.fleet, hbegins.requests]
  exact .of_isNew hnew.fleet hhorizon _

end Simulation.InOrder

/-! ## What agreement means -/

/-- No task of any vehicle serves a request. -/
def Unserved (vehicles : List (Vehicle R)) (request : RequestId) : Prop :=
  ∀ v ∈ vehicles, ∀ task ∈ v.schedule.tasks, task.kind.request? ≠ some request

/-- A request has one trip in the schedules of all vehicles, in the schedule of the vehicle of its
entry: the pickup, one drive at most, and the dropoff. Both ends are over as the entry tells. -/
def Served (vehicles : List (Vehicle R)) (request : RequestId) (entry : RequestEntry) : Prop :=
  ∃ a v b before pickup ride dropoff after,
    vehicles = a ++ v :: b ∧ entry.vehicle = some v.id ∧ Unserved (a ++ b) request ∧
    v.schedule.tasks = before ++ pickup :: (ride ++ dropoff :: after) ∧
    pickup.kind = .pickup request ∧ dropoff.kind = .dropoff request ∧
    (∀ task ∈ before ++ ride ++ after, task.kind.request? ≠ some request) ∧
    (ride = [] ∨ ∃ drive : Task R, ride = [drive] ∧ drive.kind.isDrive = true) ∧
    (pickup.status = .performed ↔ entry.pickedUpAt.isSome) ∧
    (dropoff.status = .performed ↔ entry.status = .performed)

namespace Agreement

variable {vehicles : List (Vehicle R)} {pool : ChargerPool R} {registry : Registry}
  {request : RequestId} {entry : RequestEntry}

omit [Scalar R] in
theorem request?_ne {s : Schedule R} (h : ∀ e, s.visits e request = []) :
    ∀ task ∈ s.tasks, task.kind.request? ≠ some request := by
  intro task htask hkind
  have hserves (e : TripEnd) : task.kind ≠ e.kind R request := fun heq => by
    have hnone := Schedule.visits_eq_nil_iff.mp (h e) task htask
    rw [TripEnd.serves_iff.mpr heq] at hnone
    cases hnone
  have hpickup := hserves .boarding
  have hdropoff := hserves .alighting
  cases hcase : task.kind <;> simp_all [TaskKind.request?, TripEnd.kind]

omit [Scalar R] in
/-- A request that is planned or performed has its trip. -/
theorem served (h : Agreement coming vehicles pool registry)
    (hfind : registry.find? request = some entry)
    (hstatus : entry.status = .planned ∨ entry.status = .performed) :
    Served vehicles request entry := by
  have hfound : entry.vehicle.isSome := by
    rcases h.sound.open_or_final hfind with hopen | hfinal
    · exact hopen.vehicle (hstatus.resolve_right fun hperformed => by
        rcases hopen with ⟨hopen, -⟩ | ⟨hopen, -⟩ <;> simp [hopen] at hperformed)
    · rcases hfinal with ⟨-, hvehicle⟩ | ⟨reason, hcancelled⟩
      · exact hvehicle
      · simp [hcancelled] at hstatus
  obtain ⟨id, hvehicle⟩ := Option.isSome_iff_exists.mp hfound
  obtain ⟨a, v, b, rfl, rfl, -, hstops⟩ := h.exists_vehicle hfind hstatus hvehicle
  have hone (e : TripEnd) := stops_of_one h.roster.numbered (hstops e)
  obtain ⟨before, ride, after, pickup, dropoff, trip⟩ := h.exists_trip hstops
  obtain ⟨hboarding, halighting⟩ := trip.visits_eq
  refine ⟨a, v, b, before, pickup, ride, dropoff, after, rfl, hvehicle, fun w hw => ?_, trip.tasks,
    trip.boards, trip.alights, ?_, trip.rides, ?_, ?_⟩
  · exact request?_ne fun e => stops_eq_nil_iff.mp (hone e).2 w hw
  · refine @request?_ne _ _ ⟨before ++ ride ++ after⟩ fun e => ?_
    have hride : Schedule.visits ⟨ride⟩ e request = [] :=
      Schedule.visits_eq_nil fun task htask => by simp [trip.ride_request? task htask]
    rw [Schedule.visits_append, Schedule.visits_append, hride, (trip.once e).1, (trip.once e).2]
    rfl
  · have hdone : decide (pickup.status = .performed) = entry.pickedUpAt.isSome :=
      List.singleton_inj.mp (hboarding.symm.trans (hone .boarding).1)
    rw [← hdone, decide_eq_true_iff]
  · have hdone : decide (dropoff.status = .performed) = decide (entry.status = .performed) :=
      List.singleton_inj.mp (halighting.symm.trans (hone .alighting).1)
    exact decide_eq_decide.mp hdone

omit [Scalar R] in
/-- Any other request has none. -/
theorem unserved (h : Agreement coming vehicles pool registry)
    (hstatus : ∀ entry, registry.find? request = some entry →
      entry.status ≠ .planned ∧ entry.status ≠ .performed) : Unserved vehicles request := by
  intro v hv
  refine request?_ne fun e => ?_
  have hnone : stops vehicles e request = [] := by
    rw [h.agree, Registry.stops]
    cases hfind : registry.find? request with
    | none => rfl
    | some entry => exact RequestEntry.stops_eq_nil (hstatus entry hfind)
  exact stops_eq_nil_iff.mp hnone v hv

end Agreement

/-- After any calls to a new simulation, made or refused, a request that is planned or performed has
exactly one trip, in the schedule of its vehicle and as far as the registry tells, and any other
request has none. -/
theorem Simulation.registry_agrees {scenario : Scenario R} {sim : Simulation R}
    (hnew : scenario.IsNew) (hhorizon : ∀ v ∈ scenario.fleet.vehicles, v.finish < .last)
    (hbuild : scenario.build = .ok sim) (observer : Observer R ω) (memory : ω) (calls : List Call)
    (request : RequestId) :
    let reached := (Call.performAll observer calls ⟨sim, memory⟩).sim
    (∀ entry, reached.requests.find? request = some entry →
      entry.status = .planned ∨ entry.status = .performed →
        Served reached.fleet.vehicles request entry) ∧
    ((∀ entry, reached.requests.find? request = some entry →
      entry.status ≠ .planned ∧ entry.status ≠ .performed) →
        Unserved reached.fleet.vehicles request) := by
  intro reached
  have hstart : (⟨sim, memory⟩ : Observed R ω).sim.InOrder [] :=
    InOrder.of_build hnew hhorizon hbuild []
  have h : reached.InOrder [] := hstart.performAll calls
  exact ⟨fun entry => h.agreement.served, h.agreement.unserved⟩

/-- Of two requests one is performed and has its trip, and the other one is withdrawn and has
none. -/
theorem Simulation.registry_agrees_twoStops :
    let calls : List Call := [.submit ⟨⟨0⟩, ⟨0⟩, ⟨1⟩, ⟨0⟩, .zero, none⟩,
      .submit ⟨⟨1⟩, ⟨1⟩, ⟨0⟩, ⟨1⟩, .zero, none⟩, .dispatch, .withdraw ⟨1⟩ "no longer needed",
      .runSteps 5]
    ∃ sim, Scenario.twoStops.build = .ok sim ∧
      let reached := (Call.performAll .quiet calls ⟨sim, ()⟩).sim
      Unserved reached.fleet.vehicles ⟨1⟩ ∧
      ∃ entry, reached.requests.find? ⟨0⟩ = some entry ∧ entry.status = .performed ∧
        Served reached.fleet.vehicles ⟨0⟩ entry := by
  intro calls
  obtain ⟨sim, hbuild⟩ := Scenario.exists_twoStops_build
  have hhorizon : ∀ v ∈ Scenario.twoStops.fleet.vehicles, v.finish < .last := by decide +kernel
  have hstatuses : (Scenario.twoStops.build.toOption.map fun sim =>
      let reached := (Call.performAll .quiet calls ⟨sim, ()⟩).sim
      ((reached.requests.find? ⟨0⟩).map RequestEntry.status,
        (reached.requests.find? ⟨1⟩).map RequestEntry.status)) =
      some (some .performed, some (.cancelled (.withdrawn "no longer needed"))) := by
    decide +kernel
  rw [hbuild] at hstatuses
  obtain ⟨hperformed, hcancelled⟩ := Prod.mk.inj (Option.some.inj hstatuses)
  obtain ⟨entry, hfind, hstatus⟩ := Option.map_eq_some_iff.mp hperformed
  obtain ⟨other, hother, hwithdrawn⟩ := Option.map_eq_some_iff.mp hcancelled
  have hagrees := registry_agrees Scenario.twoStops_isNew hhorizon hbuild .quiet () calls
  refine ⟨sim, hbuild, (hagrees ⟨1⟩).2 fun entry' hentry' => ?_, entry, hfind, hstatus,
    (hagrees ⟨0⟩).1 entry hfind (.inr hstatus)⟩
  rw [hother, Option.some.injEq] at hentry'
  simp [← hentry', hwithdrawn]

end DemandTransport
