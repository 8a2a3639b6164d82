import DemandTransport.Proofs.Execution.Charging
import DemandTransport.Proofs.Simulation.Calls
import Mathlib.Logic.Relation

/-!
# No charging session is given up

In a simulation that was built from new vehicles, whatever is submitted, withdrawn, executed and
dispatched in whatever order and with whatever success, every vehicle that is to charge finds a free
plug, so nothing that was planned to be charged is ever given up.
-/

namespace DemandTransport

variable {R ω : Type} [Scalar R]

/-- Only a charging task without a plug counts as given up. -/
theorem RunStats.recordEvent_forfeited {event : TaskEvent R}
    (h : event.unplugged = false) (stats : RunStats R) :
    (stats.recordEvent event).chargingForfeited = stats.chargingForfeited := by
  have hactivity : (stats.recordActivity event.phase event.activity).chargingForfeited =
      stats.chargingForfeited := by
    unfold recordActivity
    split <;> first | rfl | skip
    next hcharge => exact (event.activity_ne h _ hcharge).elim
  unfold recordEvent
  dsimp only
  split
  · unfold recordEnergy
    split <;> exact hactivity
  · exact hactivity

/-- What holds of a simulation at the present, with the next execution then or later. -/
structure Simulation.InSupply (next : Time) (sim : Simulation R) : Prop where
  equipped : sim.Equipped
  /-- Every vehicle has a place. -/
  movements : sim.movements.length = sim.fleet.size
  /-- There is room at the chargers for everything that is planned. -/
  accommodated : Accommodated sim.clock.grid sim.now next sim.chargers sim.fleet.vehicles
  /-- Nothing has been given up. -/
  forfeited : sim.stats.chargingForfeited = 0

namespace Simulation.InSupply

variable {sim : Simulation R} {next : Time}

omit [Scalar R] in
/-- The registry, the requests to come and the other counts do not matter. -/
theorem record (h : sim.InSupply next) (requests : Registry) (arrivals : List Request)
    {stats : RunStats R} (hstats : stats.chargingForfeited = 0) :
    InSupply next { sim with requests := requests, arrivals := arrivals, stats := stats } :=
  ⟨h.equipped.congr rfl rfl, h.movements, h.accommodated, hstats⟩

omit [Scalar R] in
/-- The vehicles may be planned anew. -/
theorem setFleet (h : sim.InSupply next) {fleet : Fleet R} (hsize : fleet.size = sim.fleet.size)
    (hfleet : Accommodated sim.clock.grid sim.now next sim.chargers fleet.vehicles) :
    InSupply next { sim with fleet := fleet } :=
  ⟨h.equipped.congr rfl rfl, h.movements.trans hsize.symm, hfleet, h.forfeited⟩

omit [Scalar R] in
/-- The next execution may be now. -/
theorem sooner (hrange : sim.clock.InRange) (h : sim.InSupply sim.clock.next) :
    sim.InSupply sim.now :=
  { h with accommodated := h.accommodated.sooner hrange.now_le_next }

omit [Scalar R] in
/-- The times of execution lie on the grid of the planner. -/
theorem le_snap (hrange : sim.clock.InRange) (h : sim.InSupply next) {t : Time}
    (ht : sim.now < t) : sim.clock.next ≤ sim.clock.grid.snap t :=
  hrange.le_snap ht h.equipped.stepSecs

omit [Scalar R] in
theorem snap_le (hrange : sim.clock.InRange) (h : sim.InSupply next) {t : Time}
    (ht : t ≤ sim.now) : sim.clock.grid.snap t ≤ sim.now :=
  hrange.snap_le ht h.equipped.stepSecs

omit [Scalar R] in
/-- Registering a request does nothing to the chargers. -/
theorem release (h : sim.InSupply sim.now) (request : Request) :
    (Simulation.release request).Ends sim (fun _ s => s.InSupply s.now)
      fun _ s => s.InSupply s.now :=
  release_ends (fun _ _ => h.record _ _ h.forfeited) fun _ _ => h

/-- A dispatch cycle keeps the chargers in order, and any other property of the vehicles that
planning keeps, however far it gets. -/
theorem dispatch_keeps (h : sim.InSupply next)
    (hnext : ∀ t, sim.now < t → next ≤ sim.clock.grid.snap t) {Q : List (Vehicle R) → Prop}
    (hQ : ∀ {a v b v' added}, v.schedule.Valid → Q (a ++ v :: b) →
      v.Replanned sim.clock.grid added v' → Q (a ++ v' :: b)) (hstart : Q sim.fleet.vehicles) :
    dispatchCycle.Ends sim
      (fun report s => ∃ fleet requests,
        (Accommodated sim.clock.grid sim.now next sim.chargers fleet.vehicles ∧
          Q fleet.vehicles) ∧
        s = { sim with
          fleet := fleet, requests := requests, stats := sim.stats.recordDispatch report })
      fun _ s => ∃ fleet requests,
        (Accommodated sim.clock.grid sim.now next sim.chargers fleet.vehicles ∧
          Q fleet.vehicles) ∧
        s = { sim with fleet := fleet, requests := requests } := by
  let P (vs : List (Vehicle R)) : Prop :=
    Accommodated sim.clock.grid sim.now next sim.chargers vs
  have hvalid {a b : List (Vehicle R)} {v : Vehicle R} (hP : P (a ++ v :: b)) :
      v.schedule.Valid := hP.roster.valid_at.toValid
  have hplans : Resilient sim.clock.grid fun vs => P vs ∧ Q vs :=
    Accommodated.resilient.and fun hP hq hv => hQ (hvalid hP) hq hv
  have hgrid : sim.planner.grid = sim.clock.grid := h.equipped.grid
  rw [← hgrid] at hnext
  have hhospitable : ChargingPlanner.Hospitable sim.planner sim.network sim.router sim.now
      sim.chargers (Accommodated sim.planner.grid sim.now next sim.chargers) :=
    Accommodated.hospitable h.equipped.router hnext
  rw [hgrid] at hhospitable
  have hsessions := hhospitable.and fun hP hq hv => hQ (hvalid hP) hq (hgrid ▸ hv)
  let Kept (fleet : Fleet R) (_ : Registry) : Prop := P fleet.vehicles ∧ Q fleet.vehicles
  refine @dispatchCycle_ends R _ sim (fun _ => Kept) Kept ?_
  exact (Dispatcher.runCycle_keeps hplans ⟨h.accommodated, hstart⟩).mono
    (fun _ _ hop => ChargingPlanner.plan_keeps hsessions hop) fun _ _ hop => hop

/-- A dispatch cycle plans no session without a plug. -/
theorem dispatch (h : sim.InSupply next)
    (hnext : ∀ t, sim.now < t → next ≤ sim.clock.grid.snap t) :
    dispatchCycle.Ends sim (fun _ s => s.InSupply next ∧ s.clock = sim.clock)
      fun _ s => s.InSupply next ∧ s.clock = sim.clock := by
  have hends := h.dispatch_keeps (Q := fun vs => vs.length = sim.fleet.size) hnext
    (fun _ hsize _ => by simpa using hsize) rfl
  refine hends.mono ?_ ?_
  · rintro report s ⟨fleet, requests, ⟨hfleet, hsize⟩, rfl⟩
    exact ⟨(h.setFleet hsize hfleet).record requests sim.arrivals h.forfeited, rfl⟩
  · rintro - s ⟨fleet, requests, ⟨hfleet, hsize⟩, rfl⟩
    exact ⟨(h.setFleet hsize hfleet).record requests sim.arrivals h.forfeited, rfl⟩

/-- Execution goes through, tells of no vehicle that is to charge without a plug, and leaves every
booking for a later execution. -/
theorem execute (hrange : sim.clock.InRange) (h : sim.InSupply sim.now) :
    (Simulation.execute sim.now).Ends sim
      (fun events s => (∀ event ∈ events, event.unplugged = false) ∧
        s.InSupply s.clock.next ∧ s.clock = sim.clock) fun _ _ => False := by
  have hsteady := Accommodated.steady (R := R) fun t ht => h.snap_le (t := t) hrange ht
  have hexecute := @execute_ends R _ sim _ _ _ _ _ hsteady () h.movements h.accommodated
  refine hexecute.mono ?_ fun _ _ hfail => hfail
  rintro events s ⟨fleet, movements, chargers, _, rfl, hmovements, hsettled, hnoted, hkept⟩
  exact ⟨TaskEvent.unplugged_of_noted hnoted, ⟨h.equipped.congr rfl rfl, hmovements,
    hkept.settled hsettled fun t ht => h.le_snap hrange ht, h.forfeited⟩, rfl⟩

/-- A step keeps the chargers in order, even if it fails, while the clock does not run over. -/
theorem phased : Phased (fun sim : Simulation R => sim.InSupply sim.now)
    (fun sim => sim.InSupply sim.clock.next) (fun sim => sim.InSupply sim.now)
    (fun event => event.unplugged = false) Clock.InRange where
  release sim _ h := by
    refine releaseDue_ends (Q := fun _ s => s.InSupply s.now) (fun request rest s hs _ => ?_)
      (fun arrivals s _ hs => hs.record s.requests arrivals hs.forfeited) h
    have hrest : InSupply s.now { s with arrivals := rest } :=
      hs.record s.requests rest hs.forfeited
    exact hrest.release request
  execute sim hrange h := by
    refine (h.execute hrange).mono (fun events s hs => ⟨hs.1, ?_⟩) fun _ _ hfail => hfail.elim
    have hkeeps : (apply events).Ends s (fun _ t => t.InSupply t.clock.next)
        fun _ t => t.InSupply t.clock.next := by
      refine apply_keeps (fun t event requests htold _ ht => ?_) hs.1 hs.2.1
      exact ht.record requests t.arrivals
        ((RunStats.recordEvent_forfeited htold t.stats).trans ht.forfeited)
    have hclock := @apply_clock R _ s events
    rw [hs.2.2] at hclock
    exact (hkeeps.and hclock).mono (fun _ _ ht => ht.1) fun _ _ ht => ht.1.sooner (ht.2 ▸ hrange)
  dispatch sim hrange h := by
    refine (h.dispatch fun t ht => h.le_snap hrange ht).mono (fun _ s hs => ?_) fun _ s hs => ?_
    · rw [hs.2]
      exact hs.1
    · refine sooner (hs.2 ▸ hrange) ?_
      rw [hs.2]
      exact hs.1
  tick sim hrange h := by
    simp only [Simulation.tick, count, Action.ends_bind, Action.ends_modify]
    refine ⟨h.equipped.congr rfl rfl, h.movements, ?_, h.forfeited⟩
    rw [Simulation.now, hrange.now_advance]
    exact h.accommodated.later hrange.of_advance.now_le_next

/-- Withdrawing a request gives back bookings at most, even if it fails. -/
theorem withdraw (h : sim.InSupply sim.now) (id : RequestId) (why : String) :
    (Simulation.withdraw id why).Ends sim (fun _ s => s.InSupply s.now)
      fun _ s => s.InSupply s.now := by
  refine withdraw_keeps (fun number => ?_)
    (fun s requests hs => hs.record requests s.arrivals hs.forfeited) h
  cases hget : sim.fleet.get number with
  | error e =>
    simp only [Action.Ends, retract, Simulation.vehicle, hget, Except.mapError]
    exact h
  | ok v =>
    obtain ⟨a, b, hsplit, hlength⟩ := Fleet.get_ok hget
    rw [retract_ends hsplit hlength]
    have hplanned {v' : Vehicle R} (hv : v.Replanned sim.clock.grid [] v') :
        InSupply sim.now { sim with fleet := ⟨a ++ v' :: b⟩ } := by
      refine h.setFleet (by simp [Fleet.size, hsplit]) ?_
      exact Accommodated.resilient.replanned (hsplit ▸ h.accommodated) hv
    exact (Vehicle.retract_replanned id).mono (fun _ _ => hplanned) fun _ _ => hplanned

/-- So does every call. -/
theorem lasting : Lasting (fun sim : Simulation R => sim.InSupply sim.now)
    (fun sim => sim.InSupply sim.clock.next) (fun event => event.unplugged = false)
    Clock.InRange where
  toPhased := phased
  submit request sim _ h :=
    submit_ends (fun _ => h.release request) (h.record sim.requests _ h.forfeited) h
  withdraw id why sim _ h := h.withdraw id why
  byHand sim hrange h := by
    have hends := h.dispatch fun t ht => Nat.le_trans hrange.now_le_next (h.le_snap hrange ht)
    have hnow {s : Simulation R} (hs : s.InSupply sim.now ∧ s.clock = sim.clock) :
        s.InSupply s.now := by
      rw [Simulation.now, hs.2]
      exact hs.1
    exact hends.mono (fun _ _ => hnow) fun _ _ => hnow

/-- In a new simulation nothing is booked, and nobody is plugged in. -/
theorem of_build {scenario : Scenario R} (hnew : scenario.IsNew) (h : scenario.build = .ok sim) :
    sim.InSupply sim.now := by
  have hbegins := scenario.build_ok hnew h
  have hidle : ∀ v ∈ sim.fleet.vehicles, v.schedule.bookings sim.clock.grid = [] ∧
      v.schedule.underway = [] := by
    intro v hv
    obtain ⟨stay, htasks, hstay, hplanned⟩ := (hnew.fleet.vehicles v (hbegins.fleet ▸ hv)).tasks
    rw [Schedule.eq_of_tasks htasks]
    exact ⟨Schedule.bookings_stay hstay, Schedule.underway_eq_nil (by simp [hplanned])⟩
  have hbooked : booked sim.clock.grid sim.fleet.vehicles = [] :=
    List.flatMap_eq_nil_iff.mpr fun v hv => (hidle v hv).1
  refine ⟨hbegins.equipped, hbegins.movements, ⟨?_, hbegins.chargers, by simp [hbooked],
    by simp [hbooked], fun v hv => by simp [(hidle v hv).2], by simp [hbegins.unplugged],
    fun charger id => ?_⟩, by rw [hbegins.stats]; rfl⟩
  · rw [hbegins.fleet]
    exact hnew.fleet.roster _
  · rw [hbegins.unplugged]
    refine ⟨by simp, ?_⟩
    rintro ⟨v, hv, -, hcharges⟩
    exact (Schedule.not_charges_of_underway (hidle v hv).2 charger hcharges).elim

end Simulation.InSupply

/-! ## What executions see -/

/-- One vehicle is brought one event further by its execution. -/
inductive Round (now : Time) :
    List (Vehicle R) × ChargerPool R → List (Vehicle R) × ChargerPool R → Prop
  | mk {a b : List (Vehicle R)} {v : Vehicle R} {movement : Movement} {pool : ChargerPool R}
      {event : TaskEvent R} {state : VehicleState R}
      (h : VehicleState.advanceOnce now ⟨v, movement, pool⟩ = .ok (some event) state) :
    Round now (a ++ v :: b, pool) (a ++ state.vehicle :: b, state.chargers)

/-- Rounds in any order keep the plugs in order. -/
theorem Accommodated.rounds {grid : StepGrid} {now : Time}
    {fleet fleet' : List (Vehicle R) × ChargerPool R} (hsnap : ∀ t ≤ now, grid.snap t ≤ now)
    (h : Accommodated grid now now fleet.2 fleet.1)
    (hrounds : Relation.ReflTransGen (Round now) fleet fleet') :
    Accommodated grid now now fleet'.2 fleet'.1 := by
  induction hrounds with
  | refl => exact h
  | tail _ hround ih =>
    obtain @⟨a, b, v, movement, pool, event, state, hrun⟩ := hround
    have hends := @VehicleState.advanceOnce_ends R _ ⟨v, movement, pool⟩ now
      (ih.roster.valid v (by simp)).toValid.inSequence (ih.roster.supplied v (by simp))
    exact (ih.beat hsnap (hends.of_ok hrun)).2

/-- After any calls to a new simulation, made or refused, and as long as the clock has not run over,
no charging session has been given up, and none is given up by the next execution: whatever the
order in which vehicles are brought up to the present, every vehicle that is to charge gets a plug
when it asks for one. -/
theorem Simulation.every_session_plugged {scenario : Scenario R} {sim : Simulation R}
    (hnew : scenario.IsNew) (hbuild : scenario.build = .ok sim) (calls : List Call)
    (hrange : (Call.performAll Observer.log calls ⟨sim, []⟩).sim.clock.InRange) :
    let reached := Call.performAll Observer.log calls ⟨sim, []⟩
    let now := reached.sim.now
    (∀ notice ∈ reached.memory, ∀ event ∈ notice.told, ∀ charger,
      event.activity ≠ .charge charger false) ∧
    reached.sim.stats.chargingForfeited = 0 ∧
    (∃ events later, Simulation.execute now reached.sim = .ok events later ∧
      ∀ event ∈ events, ∀ charger, event.activity ≠ .charge charger false) ∧
    ∀ vehicles chargers, Relation.ReflTransGen (Round now)
        (reached.sim.fleet.vehicles, reached.sim.chargers) (vehicles, chargers) →
      ∀ v ∈ vehicles, ∀ index task charger, v.schedule.firstOpen? = some (index, task) →
        task.status = .planned → task.start ≤ now → task.kind = .charge charger →
          ∃ chargers', chargers.occupy charger v.id = .ok chargers' := by
  intro reached now
  obtain ⟨h, hmemory⟩ : reached.sim.InSupply now ∧
      ∀ notice ∈ reached.memory, ∀ event ∈ notice.told, event.unplugged = false := by
    refine InSupply.lasting.performAll_told (J := fun memory : List (Notice R) =>
      ∀ notice ∈ memory, ∀ event ∈ notice.told, event.unplugged = false) ?_
      (InSupply.of_build hnew hbuild) (by simp) calls hrange
    intro notice memory hnotice hmemory known hknown
    rcases List.mem_append.mp hknown with hold | hnew
    · exact hmemory known hold
    · rw [List.mem_singleton.mp hnew]
      exact hnotice
  refine ⟨fun notice hnotice event hevent =>
    event.activity_ne (hmemory notice hnotice event hevent), h.forfeited, ?_, ?_⟩
  · obtain ⟨events, later, hrun, hplugged, -⟩ := (h.execute hrange).exists_ok
    exact ⟨events, later, hrun, fun event hevent => event.activity_ne (hplugged event hevent)⟩
  · intro vehicles chargers hrounds v hv index task charger hfirst hplanned hdue hkind
    have hsnap : ∀ t ≤ now, reached.sim.clock.grid.snap t ≤ now :=
      fun t ht => h.snap_le hrange ht
    have hkept : Accommodated reached.sim.clock.grid now now chargers vehicles :=
      Accommodated.rounds hsnap h.accommodated hrounds
    obtain ⟨before, after, htasks, -⟩ := Schedule.firstOpen?_eq_some hfirst
    obtain ⟨a, b, rfl⟩ := List.append_of_mem hv
    exact hkept.exists_plug hsnap (by simp [htasks]) hplanned hkind hdue

/-- Two vehicles that share a plug have both charged after ten steps, though one of them was taken
from a request that was withdrawn. -/
theorem Simulation.every_session_plugged_twoStops :
    let calls : List Call := [.submit ⟨⟨0⟩, ⟨0⟩, ⟨1⟩, ⟨0⟩, .zero, none⟩, .runSteps 1,
      .withdraw ⟨0⟩ "no longer needed", .runSteps 9]
    ∃ sim, Scenario.twoStops.build = .ok sim ∧
      let reached := Call.performAll Observer.log calls ⟨sim, []⟩
      reached.sim.clock.InRange ∧
      reached.sim.stats.chargingCompleted = 2 ∧ reached.sim.stats.chargingForfeited = 0 ∧
      ∀ notice ∈ reached.memory, ∀ event ∈ notice.told, ∀ charger,
        event.activity ≠ .charge charger false := by
  intro calls
  obtain ⟨sim, hbuild⟩ := Scenario.exists_twoStops_build
  have hreached : (Scenario.twoStops.build.toOption.map fun sim =>
      let reached := (Call.performAll Observer.log calls ⟨sim, []⟩).sim
      (decide reached.clock.InRange, reached.stats.chargingCompleted)) = some (true, 2) := by
    decide +kernel
  rw [hbuild] at hreached
  obtain ⟨hrange, hcompleted⟩ := Prod.mk.inj (Option.some.inj hreached)
  have hrange := of_decide_eq_true hrange
  obtain ⟨htold, hforfeited, -⟩ :=
    every_session_plugged Scenario.twoStops_isNew hbuild calls hrange
  exact ⟨sim, hbuild, hrange, hcompleted, hforfeited, htold⟩

end DemandTransport
