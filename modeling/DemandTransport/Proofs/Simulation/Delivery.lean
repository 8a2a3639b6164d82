import DemandTransport.Proofs.Execution.Telling
import DemandTransport.Proofs.Simulation.Agreement
import DemandTransport.Proofs.Simulation.Charging

/-!
# Events are told once and in order

In a simulation that was built from new vehicles, whatever is submitted, withdrawn, executed and
dispatched in whatever order and with whatever success, an observer is told that each task of a
vehicle starts and ends, one after the other, and of nothing else. Everything that has been begun
has been told, since events are told of a step only after they have been noted, which cannot fail.
-/

namespace DemandTransport

variable {R : Type} [Scalar R]

/-- What holds of a simulation and of all that has been told, with the next execution now or
later. -/
structure Simulation.Recounts (past : List (TaskEvent R)) (next : Time) (sim : Simulation R) :
    Prop where
  order : sim.InOrder []
  supply : sim.InSupply next
  /-- What has happened has been told. -/
  told : Told past sim.fleet.vehicles

namespace Simulation.Recounts

variable {sim : Simulation R} {past : List (TaskEvent R)} {next : Time}

/-- Schedules are executed, what happens is noted, and all of it is to be told. -/
theorem execute (hrange : sim.clock.InRange) (h : sim.Recounts past sim.now) :
    (Simulation.execute sim.now).Ends sim
      (fun events s => (Simulation.apply events).Ends s
        (fun _ t => t.Recounts (past ++ events) t.clock.next) fun _ _ => False)
      fun _ _ => False := by
  have hsteady := Told.steady (R := R) fun t ht => h.supply.snap_le hrange (t := t) ht
  have htells := execute_ends hsteady h.order.movements ⟨h.supply.accommodated, h.told⟩
  have hsupplies := InSupply.phased.execute sim hrange h.supply
  refine ((h.order.execute.and hsupplies).and htells).mono ?_ fun _ _ hfail => hfail.2
  rintro events s
    ⟨⟨horder, -, hsupply⟩, fleet, movements, chargers, later, rfl, -, -, hnoted, hlast⟩
  rw [TaskEvent.past_of_noted hnoted] at hlast
  refine ((horder.and hsupply).and apply_fleet).mono ?_ fun _ _ hfail => hfail.1.1
  rintro - t ⟨⟨⟨hordered, -⟩, hsupplied⟩, hfleet⟩
  exact ⟨hordered, hsupplied, by rw [hfleet]; exact hlast.2⟩

/-- A dispatch cycle tells of no event, and none happens. -/
theorem dispatch (h : sim.Recounts past next)
    (hnext : ∀ t, sim.now < t → next ≤ sim.clock.grid.snap t) :
    dispatchCycle.Ends sim (fun _ s => s.Recounts past next ∧ s.clock = sim.clock)
      fun _ _ => False := by
  have hkeeps := h.supply.dispatch_keeps hnext (Q := Told past)
    (fun hvalid htold hv => htold.replanned hvalid hv) h.told
  refine ((h.order.dispatch.and (h.supply.dispatch hnext)).and hkeeps).mono ?_
    fun _ _ hfail => hfail.1.1
  rintro report s ⟨⟨⟨horder, -⟩, hsupply, hclock⟩, fleet, requests, ⟨-, htold⟩, rfl⟩
  exact ⟨⟨horder, hsupply, htold⟩, hclock⟩

/-- Nothing happens when a request is withdrawn. -/
theorem withdraw (h : sim.Recounts past sim.now) (id : RequestId) (why : String) :
    (Simulation.withdraw id why).Ends sim (fun _ s => s.Recounts past s.now)
      fun _ s => s.Recounts past s.now := by
  refine (((h.order.withdraw id why).and (h.supply.withdraw id why)).and
    (h.order.withdraw_ends id why)).mono ?_ fun _ s hs => by rw [hs.1.1]; exact h
  rintro - s ⟨⟨⟨horder, -⟩, hsupply⟩, -, entry, fleet, requests, -, -, htakes, -, rfl⟩
  refine ⟨horder, hsupply, ?_⟩
  cases htakes with
  | unplanned => exact h.told
  | @planned a b v v' _ hsplit _ hrun _ =>
    have hreplanned : v.Replanned sim.clock.grid [] v' :=
      (Vehicle.retract_replanned id).of_ok hrun
    have htold := h.told
    rw [hsplit] at htold
    have hvalid := h.supply.accommodated.roster.valid v (by simp [hsplit])
    exact htold.replanned hvalid.toValid hreplanned

/-- Every call keeps events told, while the clock does not run over. -/
theorem enduring : Enduring (fun past (sim : Simulation R) => sim.Recounts past sim.now)
    (fun past sim => sim.Recounts past sim.clock.next) Clock.InRange where
  release past sim hrange h := by
    have hboth := (InOrder.phased.release sim trivial h.order).and
      (InSupply.phased.release sim hrange h.supply)
    refine (hboth.and releaseDue_fleet).mono ?_ ?_
    · rintro - s ⟨⟨horder, hsupply⟩, hfleet⟩
      exact ⟨horder, hsupply, by rw [hfleet]; exact h.told⟩
    · rintro - s ⟨⟨horder, hsupply⟩, hfleet⟩
      exact ⟨horder, hsupply, by rw [hfleet]; exact h.told⟩
  execute past sim hrange h :=
    (h.execute hrange).of_no_failure.mono (fun _ _ hs => hs.of_no_failure) fun _ _ hfail => hfail
  dispatch past sim hrange h := by
    refine (h.dispatch fun t ht => h.supply.le_snap hrange ht).mono (fun _ s hs => ?_)
      fun _ _ hfail => hfail.elim
    rw [hs.2]
    exact hs.1
  tick past sim hrange h := by
    have hboth := (InOrder.phased.tick sim trivial h.order).and
      (InSupply.phased.tick sim hrange h.supply)
    simp only [Simulation.tick, count, Action.ends_bind, Action.ends_modify] at hboth ⊢
    exact ⟨hboth.1, hboth.2, h.told⟩
  submit request past sim hrange h := by
    have hboth := (InOrder.lasting.submit request sim trivial h.order).and
      (InSupply.lasting.submit request sim hrange h.supply)
    refine (hboth.and submit_fleet).mono ?_ ?_
    · rintro - s ⟨⟨horder, hsupply⟩, hfleet⟩
      exact ⟨horder, hsupply, by rw [hfleet]; exact h.told⟩
    · rintro - s ⟨⟨horder, hsupply⟩, hfleet⟩
      exact ⟨horder, hsupply, by rw [hfleet]; exact h.told⟩
  withdraw id why past sim _ h := h.withdraw id why
  byHand past sim hrange h := by
    have hends := h.dispatch fun t ht =>
      Nat.le_trans hrange.now_le_next (h.supply.le_snap hrange ht)
    refine hends.mono (fun _ s hs => ?_) fun _ _ hfail => hfail.elim
    have hnow : s.now = sim.now := congrArg Clock.now hs.2
    rw [hnow]
    exact hs.1

/-- In a new simulation nothing has happened. -/
theorem of_build {scenario : Scenario R} (hnew : scenario.IsNew)
    (hhorizon : ∀ v ∈ scenario.fleet.vehicles, v.finish < .last)
    (h : scenario.build = .ok sim) : sim.Recounts [] sim.now := by
  refine ⟨InOrder.of_build hnew hhorizon h [], InSupply.of_build hnew h, fun v hv => ?_⟩
  rw [(scenario.build_ok hnew h).fleet] at hv
  obtain ⟨stay, htasks, -, hplanned⟩ := (hnew.fleet.vehicles v hv).tasks
  rw [Schedule.occurrences, htasks, occurrencesFrom_planned (by simpa using hplanned)]
  rfl

end Simulation.Recounts

/-- After any calls to a new simulation, made or refused, and as long as the clock has not run over,
the events that an observer has been told of a vehicle are the starts and ends of its tasks in turn,
each once and without a gap, at times that never decrease, the end of each task at the start of the
next one; and they are all that has happened in the schedule of the vehicle. -/
theorem Simulation.events_told_in_order {scenario : Scenario R} {sim : Simulation R}
    (hnew : scenario.IsNew) (hhorizon : ∀ v ∈ scenario.fleet.vehicles, v.finish < .last)
    (hbuild : scenario.build = .ok sim) (calls : List Call)
    (hrange : (Call.performAll Observer.log calls ⟨sim, []⟩).sim.clock.InRange) :
    let reached := Call.performAll Observer.log calls ⟨sim, []⟩
    ∀ v ∈ reached.sim.fleet.vehicles,
      let told := (reached.memory.flatMap Notice.told).filter fun event => event.vehicle = v.id
      Chronicle told ∧ told.map TaskEvent.occurrence = v.schedule.occurrences := by
  intro reached v hv told
  have hstart : Observed.Shares (fun past (sim : Simulation R) => sim.Recounts past sim.now)
      (fun past memory => past = memory.flatMap Notice.told) ⟨sim, []⟩ :=
    ⟨[], Recounts.of_build hnew hhorizon hbuild, rfl⟩
  obtain ⟨_, hrecounts, rfl⟩ := Recounts.enduring.performAll
    (fun past notice memory hpast => by simp [Observer.log, hpast]) hstart calls hrange
  have htold := hrecounts.told v hv
  have hvalid := hrecounts.supply.accommodated.roster.valid v hv
  exact ⟨hvalid.toValid.chronicle htold, htold⟩

/-- A vehicle makes a trip in one step and is idle when another one is planned, which cuts its idle
time off; after that trip it begins to charge. So ten tasks have started, and nine have ended. -/
theorem Simulation.events_told_in_order_twoStops :
    let calls : List Call := [.submit ⟨⟨0⟩, ⟨0⟩, ⟨1⟩, ⟨0⟩, .zero, none⟩, .dispatch, .runSteps 1,
      .submit ⟨⟨1⟩, ⟨1⟩, ⟨0⟩, ⟨1⟩, .zero, none⟩, .runSteps 2, .withdraw ⟨0⟩ "too late", .runSteps 3]
    ∃ sim, Scenario.twoStops.build = .ok sim ∧
      let reached := Call.performAll Observer.log calls ⟨sim, []⟩
      reached.sim.clock.InRange ∧ ∃ v, reached.sim.fleet.vehicles.head? = some v ∧
        let told := (reached.memory.flatMap Notice.told).filter fun event => event.vehicle = v.id
        Chronicle told ∧ told.length = 19 ∧
          told.map TaskEvent.occurrence = v.schedule.occurrences := by
  intro calls
  obtain ⟨sim, hbuild⟩ := Scenario.exists_twoStops_build
  have hhorizon : ∀ v ∈ Scenario.twoStops.fleet.vehicles, v.finish < .last := by decide +kernel
  have hcount : (Scenario.twoStops.build.toOption.map fun sim =>
      let reached := Call.performAll Observer.log calls ⟨sim, []⟩
      (decide reached.sim.clock.InRange, reached.sim.fleet.vehicles.head?.map fun v =>
        ((reached.memory.flatMap Notice.told).filter fun event => event.vehicle = v.id).length)) =
      some (true, some 19) := by
    decide +kernel
  rw [hbuild] at hcount
  obtain ⟨hrange, hcount⟩ := Prod.mk.inj (Option.some.inj hcount)
  have hrange := of_decide_eq_true hrange
  obtain ⟨v, hv, hlength⟩ := Option.map_eq_some_iff.mp hcount
  have hmem := List.mem_of_mem_head? (Option.mem_def.mpr hv)
  obtain ⟨hchronicle, htold⟩ :=
    events_told_in_order Scenario.twoStops_isNew hhorizon hbuild calls hrange v hmem
  exact ⟨sim, hbuild, hrange, v, hv, hchronicle, hlength, htold⟩

end DemandTransport
