import DemandTransport.Proofs.Dispatch.Appointments
import DemandTransport.Proofs.Dispatch.Capacity
import DemandTransport.Proofs.Simulation.Agreement
import DemandTransport.Proofs.Simulation.Idling

/-!
# Plans are kept to the second

In a simulation that was built from new vehicles, a request for which a vehicle has been found has
an appointment, and it is kept: boarding and alighting are over exactly as long after the appointed
times as they take. When a step has been completed by whose time the trip should have ended, the
request has been performed, unless it had been withdrawn before.
-/

namespace DemandTransport

variable {R ω : Type} [Scalar R]

namespace Clock

variable {clock : Clock} {t : Time}

/-- The times of the steps that have been completed. -/
def Passed (clock : Clock) (t : Time) : Prop :=
  ∃ step < clock.step, t = ({ clock with step := step } : Clock).now

/-- Steps lie behind each other as long as the clock has not run over. -/
theorem Passed.le_now (hrange : clock.InRange) (h : clock.Passed t) : t ≤ clock.now := by
  obtain ⟨step, hstep, rfl⟩ := h
  have hmul : step * clock.stepSecs ≤ clock.step * clock.stepSecs :=
    Nat.mul_le_mul_right _ (Nat.le_of_lt hstep)
  rw [(hrange.of_le (Nat.le_of_lt hstep)).now_eq, hrange.now_eq]
  simp only [Time.le_iff, Time.secs_offset]
  omega

theorem passed_advance : clock.advance.Passed t ↔ clock.Passed t ∨ t = clock.now := by
  constructor
  · rintro ⟨step, hstep, rfl⟩
    rcases Nat.lt_succ_iff_lt_or_eq.mp hstep with hlt | rfl
    · exact .inl ⟨step, hlt, rfl⟩
    · exact .inr rfl
  · rintro (⟨step, hstep, rfl⟩ | rfl)
    · exact ⟨step, Nat.lt_succ_of_lt hstep, rfl⟩
    · exact ⟨clock.step, Nat.lt_succ_self _, rfl⟩

end Clock

namespace Simulation

variable {sim : Simulation R} {config : DispatchConfig} {passed : Time → Prop}

/-- The appointments of a simulation with certain settings are kept. -/
structure KeepsTime (config : DispatchConfig) (passed : Time → Prop) (sim : Simulation R) :
    Prop where
  settings : sim.dispatcher.config = config
  punctual : Punctual config passed sim.now sim.fleet.vehicles sim.requests

namespace KeepsTime

/-- Beats keep vehicles and registry in agreement and the appointments. -/
theorem steady (now : Time) :
    Steady now (fun requests event => registryChange event requests)
      fun vehicles pool requests => Agreement [] vehicles pool requests ∧
        Punctual (R := R) config passed now vehicles requests where
  ready h := (InOrder.steady now).ready h.1
  beat h hbeat := by
    obtain ⟨registry', hchange, hnotes, hagree⟩ := h.1.beat hbeat
    exact ⟨registry', hchange, hagree, h.2.beat hbeat hnotes⟩

/-- When schedules have been executed and what has happened has been noted, the present has passed
for all trips. -/
theorem execute (horder : sim.InOrder []) (h : sim.KeepsTime config sim.clock.Passed) :
    (Simulation.execute sim.now).Ends sim
      (fun events s => (Simulation.apply events).Ends s
        (fun _ t => t.KeepsTime config t.clock.advance.Passed) fun _ _ => False)
      fun _ _ => False := by
  refine (execute_ends (steady sim.now) horder.movements ⟨horder.agreement, h.punctual⟩).mono ?_
    fun _ _ hfail => hfail
  rintro events s ⟨fleet, movements, chargers, requests, rfl, -, hsettled, hnoted, hagree,
    hpunctual⟩
  refine Action.Ends.mono (apply_ends hnoted) ?_ fun _ _ hfail => hfail
  rintro - t rfl
  refine ⟨h.settings, fun id entry hfind => ?_, hpunctual.schedules⟩
  exact (hpunctual.entries id entry hfind).pass (fun t => Clock.passed_advance.mp)
    fun dropoff hplanned hdropoff => hpunctual.lt_end hagree hsettled hfind hplanned hdropoff

/-- A dispatch cycle keeps the appointments and makes new ones. -/
theorem dispatch (horder : sim.InOrder []) (h : sim.KeepsTime config passed)
    (hpassed : ∀ t, passed t → t ≤ sim.now) :
    dispatchCycle.Ends sim (fun _ s => s.KeepsTime config passed ∧ s.clock = sim.clock)
      fun _ _ => False := by
  obtain ⟨rfl, hpunctual⟩ := h
  refine horder.dispatch_moves.mono ?_ fun _ _ hfail => hfail
  rintro - s ⟨op, stats, hmoves, rfl⟩
  exact ⟨⟨rfl, Operation.punctual_of_moves hmoves horder.equipped.ready horder.agreement hpassed
    hpunctual⟩, rfl⟩

omit [Scalar R] in
/-- A request that is due is registered. -/
theorem release {request : Request} (h : sim.KeepsTime config passed)
    (hsound : sim.requests.Sound) (hdue : request.submitted ≤ sim.now) :
    (Simulation.release request).Ends sim
      (fun _ s => s.KeepsTime config passed ∧ s.requests.Sound ∧ s.clock = sim.clock)
      fun _ s => s = sim := by
  refine release_ends (fun requests hsubmit => ?_) fun _ _ => rfl
  obtain ⟨-, hbecomes⟩ := hsound.submit_ok hsubmit
  exact ⟨⟨h.settings, h.punctual.submit hsound hsubmit hdue⟩, hbecomes.sound, rfl⟩

/-- The appointments are kept through a step, while the clock does not run over. Once the schedules
have been executed the present has passed, though the clock still shows it. -/
theorem phased : Phased
    (fun sim : Simulation R => sim.InOrder [] ∧ sim.KeepsTime config sim.clock.Passed)
    (fun sim => sim.InOrder [] ∧ sim.KeepsTime config sim.clock.advance.Passed)
    (fun sim => sim.InOrder [] ∧ sim.KeepsTime config sim.clock.Passed)
    (fun _ => True) Clock.InRange := by
  refine InOrder.phased.meanwhile.with_kept (K := fun sim => sim.KeepsTime config sim.clock.Passed)
    (L := fun sim => sim.KeepsTime config sim.clock.advance.Passed) ?_ ?_ ?_ ?_
  · intro sim _ horder h
    refine releaseDue_ends (Q := fun _ s => s.KeepsTime config s.clock.Passed ∧
      s.requests.Sound ∧ s.clock = sim.clock) (fun request rest s hs hdue => ?_)
      (fun _ _ _ hs => ⟨hs.1.settings, hs.1.punctual⟩) ⟨h, horder.agreement.sound, rfl⟩
    obtain ⟨hkeeps, hsound, hclock⟩ := hs
    have hsame : Simulation.KeepsTime config s.clock.Passed { s with arrivals := rest } :=
      ⟨hkeeps.settings, hkeeps.punctual⟩
    rw [Simulation.now, ← hclock] at hdue
    refine (release hsame hsound hdue).mono ?_ ?_
    · rintro - t ⟨ht, hsound', hclock'⟩
      rw [hclock']
      exact ⟨ht, hsound', hclock⟩
    · rintro - t rfl
      exact hsame
  · intro sim _ horder h
    exact (execute horder h).mono (fun _ _ hs => hs.mono (fun _ _ ht => ht) fun _ _ hfail =>
      hfail.elim) fun _ _ hfail => hfail.elim
  · intro sim hrange horder h
    refine (dispatch horder h ?_).mono ?_ fun _ _ hfail => hfail.elim
    · intro t ht
      rcases Clock.passed_advance.mp ht with ht | rfl
      · exact ht.le_now hrange
      · exact Nat.le_refl _
    · rintro - s ⟨hs, hclock⟩
      rwa [hclock]
  · intro sim hrange horder h
    simp only [Simulation.tick, count, Action.ends_bind, Action.ends_modify]
    have hlater : sim.now ≤ sim.clock.advance.now := by
      rw [hrange.now_advance]
      exact hrange.of_advance.now_le_next
    exact ⟨h.settings, fun id entry hfind => (h.punctual.entries id entry hfind).later hlater,
      h.punctual.schedules⟩

/-- A request that is withdrawn gives its appointment up. -/
theorem withdraw (horder : sim.InOrder []) (h : sim.KeepsTime config sim.clock.Passed)
    (id : RequestId) (why : String) :
    (Simulation.withdraw id why).Ends sim (fun _ s => s.KeepsTime config s.clock.Passed)
      fun _ s => s.KeepsTime config s.clock.Passed := by
  refine (horder.withdraw_ends id why).mono ?_ fun _ s hs => by rwa [hs.2]
  rintro - s ⟨-, entry, fleet, requests, hfind, hbecomes, hfleet, -, rfl⟩
  refine ⟨h.settings, ?_⟩
  cases hfleet with
  | unplanned hstatus => exact h.punctual.cancel hfind hbecomes (.inl hstatus)
  | @planned a b v v' hstatus hsplit _ hretract _ =>
    have hcancelled := h.punctual.cancel hfind hbecomes (.inr ⟨hstatus, why, rfl⟩)
    rw [hsplit] at hcancelled
    exact hcancelled.replace ((hcancelled.schedules v (by simp)).visitsOf
      (Vehicle.retract_ok hretract).visitsOf)

/-- The appointments are kept through every call, while the clock does not run over. -/
theorem lasting : Lasting
    (fun sim : Simulation R => sim.InOrder [] ∧ sim.KeepsTime config sim.clock.Passed)
    (fun sim => sim.InOrder [] ∧ sim.KeepsTime config sim.clock.advance.Passed)
    (fun _ => True) Clock.InRange := by
  refine InOrder.lasting.meanwhile.with_kept phased ?_
    (fun id why _ _ horder h => withdraw horder h id why) ?_
  · intro request sim _ horder h
    refine submit_ends (fun hdue => (release h horder.agreement.sound hdue).mono ?_ ?_)
      ⟨h.settings, h.punctual⟩ h
    · rintro - s ⟨hs, -, hclock⟩
      rwa [hclock]
    · rintro - s rfl
      exact h
  · intro sim hrange horder h
    refine (dispatch horder h fun _ => Clock.Passed.le_now hrange).mono ?_
      fun _ _ hfail => hfail.elim
    rintro - s ⟨hs, hclock⟩
    rwa [hclock]

/-- In a new simulation there is no appointment. -/
theorem of_build {scenario : Scenario R} (hnew : scenario.IsNew)
    (hbuild : scenario.build = .ok sim) :
    sim.KeepsTime scenario.dispatch sim.clock.Passed := by
  have hbegins := scenario.build_ok hnew hbuild
  refine ⟨hbegins.settings, fun id entry hfind => ?_, fun v hv task htask e id hkind => ?_⟩
  · rw [hbegins.requests] at hfind
    cases hfind
  · obtain ⟨stay, htasks, hidle, -⟩ := (hnew.fleet.vehicles v (hbegins.fleet ▸ hv)).tasks
    rw [htasks, List.mem_singleton] at htask
    have hnone := Task.request?_eq_none (.inl hidle)
    rw [← htask, hkind, e.request?_kind] at hnone
    cases hnone

end KeepsTime

/-- After any calls to a new simulation, made or refused, and as long as the clock has not run over,
every request for which a vehicle has been found has been given two times: boarding begins when the
request has been submitted and its window is open, and is over before alighting begins. Passengers
who have boarded or alighted did so in exactly the time it takes. When a step has been completed by
whose time alighting should be over, the request has been performed, unless it had been withdrawn by
that time. -/
theorem appointments_kept {scenario : Scenario R} (hnew : scenario.IsNew)
    (hhorizon : ∀ v ∈ scenario.fleet.vehicles, v.finish < .last)
    (hbuild : scenario.build = .ok sim) (observer : Observer R ω) (memory : ω)
    (calls : List Call)
    (hrange : (Call.performAll observer calls ⟨sim, memory⟩).sim.clock.InRange) :
    let reached := (Call.performAll observer calls ⟨sim, memory⟩).sim
    let config := scenario.dispatch
    ∀ id entry, reached.requests.find? id = some entry → entry.vehicle.isSome →
      ∃ pickup dropoff, entry.plannedPickup = some pickup ∧ entry.plannedDropoff = some dropoff ∧
        entry.request.submitted ≤ pickup ∧
        (∀ window ∈ entry.request.window, window.contains pickup = true) ∧
        pickup.secs + config.pickupSecs ≤ dropoff.secs ∧
        (∀ t ∈ entry.pickedUpAt, t.secs = pickup.secs + config.pickupSecs) ∧
        (∀ t ∈ entry.droppedOffAt, t.secs = dropoff.secs + config.dropoffSecs) ∧
        ∀ completed, reached.clock.Passed completed →
          dropoff.secs + config.dropoffSecs ≤ completed.secs →
            entry.status = .performed ∨
            ∃ why t, entry.status = .cancelled (.withdrawn why) ∧ entry.cancelledAt = some t ∧
              t ≤ completed := by
  intro reached config id entry hfind hvehicle
  have hstart : sim.InOrder [] ∧ sim.KeepsTime config sim.clock.Passed :=
    ⟨.of_build hnew hhorizon hbuild [], .of_build hnew hbuild⟩
  have h : reached.InOrder [] ∧ reached.KeepsTime config reached.clock.Passed :=
    KeepsTime.lasting.performAll hstart calls hrange
  obtain ⟨pickup, dropoff, happointment⟩ :=
    (h.2.punctual.entries id entry hfind).appointment hvehicle
  refine ⟨pickup, dropoff, happointment.boards, happointment.alights, happointment.submitted,
    happointment.window, happointment.ride, fun t ht => ?_, fun t ht => ?_,
    fun completed hpassed hend => ?_⟩
  · rw [happointment.boarded t ht, happointment.boarding_secs]
  · rw [happointment.alighted t ht, happointment.alighting_secs]
  · have hover : dropoff.offset config.dropoffSecs ≤ completed := by
      rwa [Time.le_iff, happointment.alighting_secs]
    exact happointment.performed_or_withdrawn hpassed hover

/-- A vehicle that is at hand waits for the window of a passenger to open, and the trip has been
made when the step at 700 seconds has been completed. -/
theorem appointments_kept_twoStops :
    let calls : List Call := [.submit ⟨⟨0⟩, ⟨0⟩, ⟨1⟩, ⟨0⟩, .zero, some ⟨.ofSecs 100, .ofSecs 1000⟩⟩,
      .submit ⟨⟨1⟩, ⟨1⟩, ⟨0⟩, ⟨1⟩, .zero, none⟩, .dispatch, .withdraw ⟨1⟩ "no longer needed",
      .runSteps 2]
    ∃ sim, Scenario.twoStops.build = .ok sim ∧
      let reached := (Call.performAll .quiet calls ⟨sim, ()⟩).sim
      reached.clock.InRange ∧ ∃ entry pickup dropoff, reached.requests.find? ⟨0⟩ = some entry ∧
        entry.plannedPickup = some pickup ∧ entry.plannedDropoff = some dropoff ∧
        pickup.secs = 100 ∧ dropoff.secs = 280 ∧ entry.status = .performed := by
  intro calls
  obtain ⟨sim, hbuild⟩ := Scenario.exists_twoStops_build
  have hhorizon : ∀ v ∈ Scenario.twoStops.fleet.vehicles, v.finish < .last := by decide +kernel
  have hnoted : (Scenario.twoStops.build.toOption.bind fun sim =>
      let reached := (Call.performAll .quiet calls ⟨sim, ()⟩).sim
      (reached.requests.find? ⟨0⟩).map fun entry => (reached.clock, entry.vehicle,
        entry.pickedUpAt, entry.droppedOffAt, entry.cancelledAt)) =
      some (⟨.zero, 700, 2⟩, some ⟨0⟩, some (.ofSecs 220), some (.ofSecs 340), none) := by
    decide +kernel
  rw [hbuild] at hnoted
  obtain ⟨entry, hfind, hentry⟩ := Option.map_eq_some_iff.mp hnoted
  simp only [Prod.mk.injEq] at hentry
  obtain ⟨hclock, hvehicle, hpickedUp, hdroppedOff, hcancelled⟩ := hentry
  have hrange : (Call.performAll .quiet calls ⟨sim, ()⟩).sim.clock.InRange := by
    rw [hclock]
    decide
  obtain ⟨pickup, dropoff, hboards, halights, -, -, -, hboarded, halighted, hdone⟩ :=
    appointments_kept Scenario.twoStops_isNew hhorizon hbuild .quiet () calls hrange ⟨0⟩ entry
      hfind (by rw [hvehicle]; rfl)
  have hpickup : 220 = pickup.secs + 120 := hboarded (.ofSecs 220) hpickedUp
  have hdropoff : 340 = dropoff.secs + 60 := halighted (.ofSecs 340) hdroppedOff
  refine ⟨sim, hbuild, hrange, entry, pickup, dropoff, hfind, hboards, halights, by omega,
    by omega, ?_⟩
  have hpassed : Clock.Passed (⟨.zero, 700, 2⟩ : Clock) (.ofSecs 700) := ⟨1, by decide, by decide⟩
  have hover : dropoff.secs + 60 ≤ (Time.ofSecs 700).secs := by
    rw [← hdropoff]
    decide
  rcases hdone (.ofSecs 700) (hclock ▸ hpassed) hover with hperformed | ⟨_, t, -, hwithdrawn, -⟩
  · exact hperformed
  · rw [hcancelled] at hwithdrawn
    cases hwithdrawn

end Simulation

/-! ## When the clock runs over -/

/-- One vehicle, on duty almost until the last instant there is. -/
def Fleet.lastingVehicle : Fleet Rat :=
  (Fleet.ofPlans .zero (.ofSecs 18446744073709551614) [⟨⟨0⟩, 4, none⟩]).toOption.getD ⟨[]⟩

/-- Steps of more than a hundred years each, at none of which requests are dispatched. -/
def Scenario.longSteps : Scenario Rat where
  config := { finish := .last, stepSecs := 4294967294, dispatchInterval := 0 }
  network := .twoStops
  router := LeastTime.route
  fleet := .lastingVehicle
  charging := .usual
  policy := .allVehicles

/-- The vehicle begins to wait at the first step, and there is nothing to do from then on. -/
theorem Scenario.longSteps_waits :
    ∃ sim begun, longSteps.build = .ok sim ∧ Observed.step .quiet ⟨sim, ()⟩ = .ok () begun ∧
      begun.sim.Waits ∧ ∀ step < 4294967297, ∀ v ∈ begun.sim.fleet.vehicles,
        v.schedule.AtRest (begun.sim.waited step).now := by
  have hbegun : (longSteps.build.toOption.bind fun sim =>
      match Observed.step .quiet ⟨sim, ()⟩ with
      | .ok _ ⟨begun, _⟩ => some (decide (begun.arrivals = [] ∧
          begun.config.dispatchInterval = 0 ∧ begun.movements.length = begun.fleet.size ∧
          begun.clock = ⟨.zero, 4294967294, 1⟩ ∧
          (begun.fleet.vehicles.map fun v => v.schedule.firstOpen?.map fun first =>
            (first.2.status, first.2.finish.secs)) = [some (.started, 18446744073709551614)]))
      | .error _ _ => none) = some true := by
    decide +kernel
  cases hbuild : longSteps.build with
  | error e => simp [hbuild, Except.toOption] at hbegun
  | ok sim =>
    simp only [hbuild, Except.toOption, Option.bind_some] at hbegun
    cases hstep : Observed.step .quiet ⟨sim, ()⟩ with
    | error e s => simp [hstep] at hbegun
    | ok _ begun =>
      simp only [hstep, Option.some.injEq, decide_eq_true_eq] at hbegun
      obtain ⟨harrivals, hcadence, hmovements, hclock, hopen⟩ := hbegun
      refine ⟨sim, begun, rfl, hstep, ⟨harrivals, hcadence, hmovements⟩, ?_⟩
      intro step hstep v hv index task hfirst
      have hmem := hopen ▸ List.mem_map_of_mem hv
      rw [hfirst] at hmem
      obtain ⟨hstarted, hfinish⟩ : task.status = .started ∧
          task.finish.secs = 18446744073709551614 := by simpa using hmem
      have hrange : Clock.InRange ⟨.zero, 4294967294, 1 + step⟩ := by
        change (1 + step) * 4294967294 ≤ 18446744073709551615
        omega
      have hnow : (begun.sim.waited step).now.secs < 18446744073709551614 := by
        rw [Simulation.now, Simulation.waited, hclock, hrange.now_eq]
        change min (0 + (1 + step) * 4294967294) 18446744073709551615 < _
        omega
      refine ⟨fun hplanned => ?_, fun _ => ?_⟩
      · rw [hstarted] at hplanned
        cases hplanned
      · rw [Time.lt_iff, hfinish]
        exact hnow

/-- Once the clock has run over, a vehicle is sent to a passenger whose request lies in the future:
it is to come there long before the request was submitted. -/
theorem Simulation.boards_before_submission :
    let request : Request := ⟨⟨0⟩, ⟨0⟩, ⟨0⟩, ⟨1⟩, .ofSecs 18446744073709551612, none⟩
    let calls : List Call := [.runSteps 4294967298, .submit request, .runSteps 1, .dispatch]
    Scenario.longSteps.IsNew ∧ (∀ v ∈ Scenario.longSteps.fleet.vehicles, v.finish < .last) ∧
    ∃ sim, Scenario.longSteps.build = .ok sim ∧
      let reached := (Call.performAll .quiet calls ⟨sim, ()⟩).sim
      ∃ entry pickup, reached.requests.find? ⟨0⟩ = some entry ∧ entry.vehicle.isSome ∧
        entry.plannedPickup = some pickup ∧ pickup.secs = 4294967290 ∧
        ¬entry.request.submitted ≤ pickup := by
  intro request calls
  have hfleet : Fleet.lastingVehicle.IsNew := by
    unfold Fleet.lastingVehicle
    exact Fleet.ofPlans_getD_isNew _ _ _
  refine ⟨⟨hfleet, rfl⟩, by decide +kernel, ?_⟩
  obtain ⟨sim, begun, hbuild, hstep, hwaits, hrest⟩ := Scenario.longSteps_waits
  have hnoted : (Scenario.longSteps.build.toOption.bind fun sim =>
      let begun := ((Observed.step .quiet).outcome ⟨sim, ()⟩).2.sim
      let reached := (Call.performAll .quiet calls.tail ⟨begun.waited 4294967297, ()⟩).sim
      (reached.requests.find? ⟨0⟩).map fun entry =>
        (entry.vehicle, entry.plannedPickup, entry.request.submitted)) =
      some (some ⟨0⟩, some (.ofSecs 4294967290), .ofSecs 18446744073709551612) := by
    decide +kernel
  have hreached : Call.performAll .quiet calls ⟨sim, ()⟩ =
      Call.performAll .quiet calls.tail ⟨begun.sim.waited 4294967297, ()⟩ :=
    Call.performAll_waits hstep hwaits hrest calls.tail
  simp only [hbuild, Except.toOption, Option.bind_some, Action.outcome, hstep] at hnoted
  rw [← hreached] at hnoted
  obtain ⟨entry, hfind, hentry⟩ := Option.map_eq_some_iff.mp hnoted
  simp only [Prod.mk.injEq] at hentry
  obtain ⟨hvehicle, hpickup, hsubmitted⟩ := hentry
  refine ⟨sim, hbuild, entry, .ofSecs 4294967290, hfind, by simp [hvehicle], hpickup, rfl, ?_⟩
  rw [hsubmitted]
  decide

end DemandTransport
