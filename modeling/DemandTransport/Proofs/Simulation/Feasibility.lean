import DemandTransport.Proofs.Dispatch.Feasibility
import DemandTransport.Proofs.Dispatch.Service
import DemandTransport.Proofs.Simulation.Agreement
import DemandTransport.Proofs.Simulation.Charging

/-!
# Plans stay feasible

In a simulation that was built from new vehicles, over the rational numbers, a vehicle to which a
trip or a charging session has just been given is feasible, and a feasible vehicle stays so through
all further steps and dispatch cycles. Three things come together: what is written into a schedule
has been projected, the battery never holds less than the outlook has foreseen, and every session
that was counted upon finds its plug.
-/

namespace DemandTransport

variable {ω : Type}

/-- A new battery holds between nothing and its capacity. -/
theorem Vehicle.IsNew.inRange {v : Vehicle Rat} (h : v.IsNew) :
    ∀ energy ∈ v.energy, energy.battery.InRange := by
  obtain ⟨id, node, start, finish, seats, h | ⟨profile, charge, h⟩⟩ := h
  · unfold conventional at h
    split at h
    · cases h
      simp
    · cases h
  · unfold electric at h
    split at h
    · cases h
    next battery hbattery =>
      dsimp only at h
      split at h
      · cases h
        have hcharge : battery.InRange := by
          unfold Battery.make at hbattery
          split_ifs at hbattery with hfinite hrange
          cases hbattery
          exact hrange
        simpa using hcharge
      · cases h

theorem Vehicle.IsNew.withinCapacity {v : Vehicle Rat} (h : v.IsNew) : v.WithinCapacity :=
  fun energy henergy => (h.inRange energy henergy).2

namespace Simulation

variable {sim mid : Simulation Rat} {chosen : List VehicleId}

/-! ## Steps and calls -/

/-- Registry, plugs and batteries are in order, with the next execution at some instant, and some
vehicles are feasible. -/
def Running (chosen : List VehicleId) (next : Time) (sim : Simulation Rat) : Prop :=
  (sim.InOrder [] ∧ sim.InSupply next) ∧ Powered chosen sim.fleet.vehicles

namespace Running

/-- Beats keep the plugs in order and the plans feasible. -/
theorem steady {grid : StepGrid} {now : Time} (hsnap : ∀ t ≤ now, grid.snap t ≤ now) :
    Steady now (fun (_ : Unit) (event : TaskEvent Rat) =>
        if event.unplugged then .error () else .ok ())
      fun vehicles pool _ => Accommodated grid now now pool vehicles ∧ Powered chosen vehicles where
  ready h v hv := ⟨(h.1.roster.valid v hv).toValid.inSequence, h.1.roster.supplied v hv⟩
  beat h hbeat := by
    obtain ⟨hplugged, hkept⟩ := h.1.beat hsnap hbeat
    refine ⟨(), ?_, hkept, h.2.beat hbeat hplugged⟩
    rw [if_neg (by simp [hplugged])]

/-- Execution keeps the plans feasible, and what has happened is noted without touching them. -/
theorem execute (hrange : sim.clock.InRange) (hsupply : sim.InSupply sim.now)
    (hpowered : Powered chosen sim.fleet.vehicles) :
    (Simulation.execute sim.now).Ends sim
      (fun events s => (Simulation.apply events).Ends s
        (fun _ t => Powered chosen t.fleet.vehicles) fun _ t => Powered chosen t.fleet.vehicles)
      fun _ _ => False := by
  have hsteady := @steady chosen _ _ fun t ht => hsupply.snap_le hrange (t := t) ht
  have hexecute := @execute_ends Rat _ sim _ _ _ _ _ hsteady () hsupply.movements
    ⟨hsupply.accommodated, hpowered⟩
  refine hexecute.mono ?_ fun _ _ hfail => hfail
  rintro events s ⟨fleet, movements, chargers, -, rfl, -, -, -, -, hpowered'⟩
  refine @apply_keeps Rat _ _ (fun _ => True) (fun t => Powered chosen t.fleet.vehicles) ?_ events
    (fun _ _ => trivial) hpowered'
  exact fun _ _ _ _ _ ht => ht

/-- A dispatch cycle keeps the plans feasible. -/
theorem dispatch (horder : sim.InOrder []) (hpowered : Powered chosen sim.fleet.vehicles) :
    dispatchCycle.Ends sim (fun _ s => Powered chosen s.fleet.vehicles)
      fun _ s => Powered chosen s.fleet.vehicles := by
  refine horder.dispatch_moves.mono ?_ fun _ _ hfail => hfail.elim
  rintro - s ⟨op, stats, hmoves, rfl⟩
  exact Operation.powered_of_moves hmoves horder.equipped.ready horder.agreement hpowered

/-- Feasible vehicles stay feasible through a step, even if it fails, while the clock does not run
over. -/
theorem phased (chosen : List VehicleId) : Phased (fun sim => sim.Running chosen sim.now)
    (fun sim => sim.Running chosen sim.clock.next) (fun sim => sim.Running chosen sim.now)
    (fun event => True ∧ event.unplugged = false) Clock.InRange := by
  refine (InOrder.phased.meanwhile.and InSupply.phased).with_kept
    (K := fun sim => Powered chosen sim.fleet.vehicles)
    (L := fun sim => Powered chosen sim.fleet.vehicles) ?_ ?_ ?_ ?_
  · intro sim _ _ hpowered
    exact releaseDue_ends (Q := fun _ s => Powered chosen s.fleet.vehicles)
      (fun _ _ _ hs _ => release_ends (fun _ _ => hs) fun _ _ => hs) (fun _ _ _ hs => hs) hpowered
  · intro sim hrange hsim hpowered
    exact (execute hrange hsim.2 hpowered).of_no_failure
  · exact fun sim _ hsim hpowered => dispatch hsim.1 hpowered
  · intro sim _ _ hpowered
    simp only [Simulation.tick, count, Action.ends_bind, Action.ends_modify]
    exact hpowered

/-- Withdrawing a request leaves every battery alone. -/
theorem withdraw (horder : sim.InOrder []) (hpowered : Powered [] sim.fleet.vehicles)
    (id : RequestId) (why : String) :
    (Simulation.withdraw id why).Ends sim (fun _ s => Powered [] s.fleet.vehicles)
      fun _ s => Powered [] s.fleet.vehicles := by
  refine (horder.withdraw_ends id why).mono ?_ fun _ s hs => by rwa [hs.2]
  rintro - s ⟨-, entry, fleet, requests, -, -, hfleet, -, rfl⟩
  cases hfleet with
  | unplanned => exact hpowered
  | @planned a b v v' _ hsplit _ hretract _ =>
    have hplanned := (@Vehicle.retract_replanned Rat {} _ v id).of_ok hretract
    rw [hsplit] at hpowered
    refine ⟨forall_mem_replace hpowered.capacity ?_, by simp⟩
    rw [hplanned.same]
    exact hpowered.capacity v (by simp)

/-- Every call keeps registry, plugs and batteries in order. -/
theorem lasting : Lasting (fun sim => sim.Running [] sim.now)
    (fun sim => sim.Running [] sim.clock.next) (fun event => True ∧ event.unplugged = false)
    Clock.InRange :=
  (InOrder.lasting.meanwhile.and InSupply.lasting).with_kept (phased [])
    (fun _ _ _ _ h => submit_ends (fun _ => release_ends (fun _ _ => h) fun _ _ => h) h h)
    (fun id why _ _ hsim h => withdraw hsim.1 h id why)
    fun _ _ hsim h => dispatch hsim.1 h

/-- In a new simulation all is in order. -/
theorem of_build {scenario : Scenario Rat} (hnew : scenario.IsNew)
    (hhorizon : ∀ v ∈ scenario.fleet.vehicles, v.finish < .last)
    (hbuild : scenario.build = .ok sim) : sim.Running [] sim.now := by
  have hfleet := (scenario.build_ok hnew hbuild).fleet
  refine ⟨⟨.of_build hnew hhorizon hbuild [], .of_build hnew hbuild⟩, fun v hv => ?_, by simp⟩
  exact (hnew.fleet.vehicles v (hfleet ▸ hv)).withinCapacity

/-- A vehicle that is feasible can be followed by its number. -/
theorem follow {next : Time} (h : sim.Running [] next) {id : VehicleId} {v : Vehicle Rat}
    (hvehicle : sim.vehicle id = .ok v) (hfeasible : v.Feasible) : sim.Running [id] next := by
  have hget : sim.fleet.get id = .ok v := by
    unfold Simulation.vehicle at hvehicle
    cases hrun : sim.fleet.get id with
    | error e => simp [hrun, Except.mapError] at hvehicle
    | ok found =>
      rw [hrun] at hvehicle
      cases hvehicle
      rfl
  obtain ⟨a, b, hsplit, hlength⟩ := Fleet.get_ok hget
  have hnumbered := h.1.1.agreement.roster.numbered
  rw [hsplit] at hnumbered
  refine ⟨h.1, h.2.capacity, fun other hother => ?_⟩
  rw [List.mem_singleton.mp hother]
  exact ⟨v, by simp [hsplit], by rw [hnumbered.id_eq, hlength], hfeasible⟩

/-- And it is found again. -/
theorem found {next : Time} {id : VehicleId} (h : sim.Running [id] next) :
    ∃ v, sim.vehicle id = .ok v ∧ v.Feasible := by
  obtain ⟨v, hv, rfl, hfeasible⟩ := h.2.feasible id (List.mem_singleton_self id)
  refine ⟨v, ?_, hfeasible⟩
  rw [Simulation.vehicle, Fleet.get_id h.1.1.agreement.roster.numbered hv]
  rfl

end Running

/-! ## Dispatch cycles -/

/-- Where a dispatch cycle takes place: between steps, or in a step, after the schedules have been
executed and what has happened has been noted. -/
inductive Dispatches (sim : Simulation Rat) : Simulation Rat → Prop where
  | byHand : sim.Dispatches sim
  | inStep {released executed applied : Simulation Rat} {events : List (TaskEvent Rat)}
    (release : releaseDue sim.now sim.arrivals sim = .ok () released)
    (execute : Simulation.execute sim.now released = .ok events executed)
    (apply : Simulation.apply events executed = .ok () applied) : sim.Dispatches applied

/-- Wherever a dispatch cycle takes place, registry and batteries are in order. -/
theorem Dispatches.running (hat : sim.Dispatches mid) (hrange : sim.clock.InRange)
    (h : sim.Running [] sim.now) : mid.InOrder [] ∧ Powered [] mid.fleet.vehicles := by
  cases hat with
  | byHand => exact ⟨h.1.1, h.2⟩
  | @inStep released executed applied events hrelease hexecute happly =>
    have hreleased := ((Running.phased []).release sim hrange h).of_ok hrelease
    have hclock : released.clock = sim.clock := releaseDue_clock.of_ok hrelease
    have hends := (Running.phased []).execute released (hclock ▸ hrange) hreleased
    rw [Simulation.now, hclock] at hends
    have hmid := (hends.of_ok hexecute).2.of_ok happly
    exact ⟨hmid.1.1, hmid.2⟩

/-- After any calls to a new simulation, made or refused, with all energies exact and as long as the
clock has not run over: a dispatch cycle is a sequence of moves, and a vehicle is feasible right
after any of them has given it a trip or a charging session. A vehicle that is feasible is so after
any number of further steps, whether or not they succeed, if the clock does not run over in them
either, and after a further dispatch cycle. -/
theorem plans_stay_feasible {scenario : Scenario Rat} (hnew : scenario.IsNew)
    (hhorizon : ∀ v ∈ scenario.fleet.vehicles, v.finish < .last)
    (hbuild : scenario.build = .ok sim) (observer : Observer Rat ω) (memory : ω)
    (calls : List Call)
    (hrange : (Call.performAll observer calls ⟨sim, memory⟩).sim.clock.InRange) :
    let reached := Call.performAll observer calls ⟨sim, memory⟩
    (∀ mid, reached.sim.Dispatches mid →
      let Moves := Operation.Moves mid.context mid.planner mid.chargers
      (∃ report later, dispatchCycle mid = .ok report later ∧
        Relation.ReflTransGen Moves mid.operation later.operation) ∧
      ∀ op, Relation.ReflTransGen Moves mid.operation op → ∀ v ∈ op.fleet.vehicles, ∀ v',
        (∀ request plan, v.evaluate mid.context request = .ok plan →
          Vehicle.commit plan v = .ok () v' → v'.Feasible) ∧
        ∀ bookings session,
          mid.planner.sessionFor? mid.network mid.router mid.now mid.chargers bookings v =
            some session →
          Vehicle.insertAt session.depart session.tasks v = .ok () v' → v'.Feasible) ∧
    ∀ id v, reached.sim.vehicle id = .ok v → v.Feasible →
      (∀ steps,
        let later := ((Observed.runSteps observer steps).outcome reached).2.sim
        later.clock.InRange → ∃ v', later.vehicle id = .ok v' ∧ v'.Feasible) ∧
      ∃ v', (dispatchCycle.outcome reached.sim).2.vehicle id = .ok v' ∧ v'.Feasible := by
  intro reached
  have h : reached.sim.Running [] reached.sim.now :=
    Running.lasting.performAll (Running.of_build hnew hhorizon hbuild) calls hrange
  constructor
  · intro mid hat Moves
    obtain ⟨horder, hpowered⟩ := hat.running hrange h
    have hready := horder.equipped.ready
    constructor
    · obtain ⟨report, later, hrun, op, stats, hmoves, rfl⟩ := horder.dispatch_moves.exists_ok
      exact ⟨report, _, hrun, hmoves⟩
    · intro op hmoves v hv v'
      have hop := Operation.agrees_of_moves hmoves hready horder.agreement
      have hpowered' := Operation.powered_of_moves hmoves hready horder.agreement hpowered
      obtain ⟨a, b, hsplit⟩ := List.append_of_mem hv
      have hagree := hop.split hsplit
      have hvalid := hagree.roster.valid_at.toValid
      constructor
      · intro request plan heval hrun
        exact (Vehicle.commit_feasible hready hvalid hagree.finish_lt (hpowered'.capacity v hv)
          heval hrun).2.2
      · intro bookings session hfound hrun
        exact (ChargingPlanner.session_feasible hready.router hvalid (hpowered'.capacity v hv)
          hfound hrun).2.2
  · intro id v hvehicle hfeasible
    have hfollow := h.follow hvehicle hfeasible
    constructor
    · intro steps later
      exact ((Observed.runSteps_ends (Running.phased [id]) (J := fun _ => True)
        (fun _ _ _ _ => trivial) (fun _ => ⟨hfollow, trivial⟩) steps).mono
        (fun _ _ hs hlater => (hs hlater).1.found) fun _ _ hs hlater => (hs hlater).1.found).outcome
    · have hends := ((InOrder.lasting.meanwhile.and InSupply.lasting).byHand reached.sim hrange
        hfollow.1).and (Running.dispatch hfollow.1.1 hfollow.2)
      exact (hends.mono (fun _ s hs => @Running.found s s.now id hs)
        fun _ s hs => @Running.found s s.now id hs).outcome

/-- A vehicle that has been sent to charge is still feasible when it has charged. -/
theorem plans_stay_feasible_twoStops :
    let calls : List Call := [.submit ⟨⟨0⟩, ⟨0⟩, ⟨1⟩, ⟨0⟩, .zero, none⟩, .dispatch]
    ∃ sim, Scenario.twoStops.build = .ok sim ∧
      let reached := Call.performAll .quiet calls ⟨sim, ()⟩
      let later := ((Observed.runSteps .quiet 5).outcome reached).2.sim
      reached.sim.clock.InRange ∧ later.clock.InRange ∧
      ∃ v, reached.sim.vehicle ⟨1⟩ = .ok v ∧ v.schedule.pendingEnergy = [0, 7, 0] ∧ v.Feasible ∧
        ∃ v', later.vehicle ⟨1⟩ = .ok v' ∧ v'.Feasible := by
  intro calls
  obtain ⟨sim, hbuild⟩ := Scenario.exists_twoStops_build
  have hhorizon : ∀ v ∈ Scenario.twoStops.fleet.vehicles, v.finish < .last := by decide +kernel
  have hcharges : (Scenario.twoStops.build.toOption.map fun sim =>
      let reached := Call.performAll .quiet calls ⟨sim, ()⟩
      let later := ((Observed.runSteps .quiet 5).outcome reached).2.sim
      (decide (reached.sim.clock.InRange ∧ later.clock.InRange),
        (reached.sim.vehicle ⟨1⟩).toOption.map fun v =>
          (v.schedule.pendingEnergy, decide v.Feasible))) =
      some (true, some ([0, 7, 0], true)) := by
    decide +kernel
  rw [hbuild] at hcharges
  obtain ⟨hranges, hplan⟩ := Prod.mk.inj (Option.some.inj hcharges)
  obtain ⟨hrange, hlater⟩ := of_decide_eq_true hranges
  obtain ⟨v, hv, hplan⟩ := Option.map_eq_some_iff.mp hplan
  obtain ⟨hpending, hfeasible⟩ := Prod.mk.inj hplan
  have hvehicle : (Call.performAll .quiet calls ⟨sim, ()⟩).sim.vehicle ⟨1⟩ = .ok v := by
    cases hrun : (Call.performAll .quiet calls ⟨sim, ()⟩).sim.vehicle ⟨1⟩ with
    | error e => simp [hrun, Except.toOption] at hv
    | ok found =>
      rw [hrun] at hv
      exact congrArg Except.ok (Option.some.inj hv)
  have hstays :=
    (plans_stay_feasible Scenario.twoStops_isNew hhorizon hbuild .quiet () calls hrange).2
      ⟨1⟩ v hvehicle (of_decide_eq_true hfeasible)
  exact ⟨sim, hbuild, hrange, hlater, v, hvehicle, hpending, of_decide_eq_true hfeasible,
    hstays.1 5 hlater⟩

end Simulation

end DemandTransport
