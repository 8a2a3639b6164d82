import DemandTransport.Proofs.Simulation.Agreement

/-!
# Withdrawing a request

A request is withdrawn entirely or not at all. It is refused when the request is unknown, final or
boarding, and then nothing changes. Otherwise the request is cancelled and archived, its trip is
gone, and of everything else in the simulation only the idle time and the drives of its own vehicle
that led to the trip can change.
-/

namespace DemandTransport

variable {R ω : Type}

/-- What a vehicle keeps when the trip of a request is taken out of its schedule. -/
structure Vehicle.Yields (request : RequestId) (v v' : Vehicle R) : Prop where
  /-- Only the schedule changes. -/
  same : v' = { v with schedule := v'.schedule }
  /-- It is as valid as before. -/
  valid : v'.schedule.validate = .ok ()
  start : v'.schedule.start = v.schedule.start
  finish : v'.schedule.finish = v.schedule.finish
  /-- What has been begun, charging, and the visits of other requests stay where they are. -/
  spares : v.schedule.Spares request v'.schedule

/-- What withdrawing a request changes in a simulation. -/
structure Simulation.Withdraws (id : RequestId) (why : String) (sim after : Simulation R)
    (entry : RequestEntry) : Prop where
  found : sim.requests.find? id = some entry
  /-- The request is cancelled. -/
  cancelled : after.requests.find? id =
    some { entry with status := .cancelled (.withdrawn why), cancelledAt := some sim.now }
  /-- It is kept in the archive. -/
  archived : { entry with status := .cancelled (.withdrawn why), cancelledAt := some sim.now } ∈
    after.requests.archive
  /-- It is not active any more. -/
  inactive : ∀ e ∈ after.requests.active, e.id ≠ id
  /-- All other requests stand where they stood. -/
  others : ∀ other, other ≠ id → after.requests.find? other = sim.requests.find? other
  /-- No vehicle stops for the request any more. -/
  unserved : Unserved after.fleet.vehicles id
  /-- Vehicles other than its own do not change. -/
  vehicles : List.Forall₂ (fun v v' => v.Yields id v' ∧ (entry.vehicle ≠ some v.id → v' = v))
    sim.fleet.vehicles after.fleet.vehicles
  /-- Besides vehicles and requests only a count changes. -/
  rest : after = { sim with
    fleet := after.fleet, requests := after.requests
    stats := { sim.stats with cancelled := sim.stats.cancelled + 1 } }

theorem Vehicle.Yields.refl {request : RequestId} {v : Vehicle R} (h : v.schedule.Valid) :
    v.Yields request v :=
  ⟨rfl, Schedule.validate_eq_ok_iff.mpr h, rfl, rfl, fun _ _ hget _ => hget⟩

variable [Scalar R] {sim : Simulation R} {id : RequestId} {entry : RequestEntry}

/-- Taking a request back leaves all other vehicles alone. -/
theorem Simulation.TakesBack.yields {fleet : Fleet R} (h : sim.TakesBack id entry fleet)
    (hroster : Roster sim.fleet.vehicles sim.chargers)
    (hroster' : Roster fleet.vehicles sim.chargers) :
    List.Forall₂ (fun v v' => v.Yields id v' ∧ (entry.vehicle ≠ some v.id → v' = v))
      sim.fleet.vehicles fleet.vehicles := by
  have hsame (vehicles : List (Vehicle R)) (hvalid : ∀ v ∈ vehicles, v.schedule.Valid) :
      List.Forall₂ (fun v v' => v.Yields id v' ∧ (entry.vehicle ≠ some v.id → v' = v))
        vehicles vehicles :=
    List.forall₂_same.mpr fun v hv => ⟨.refl (hvalid v hv), fun _ => rfl⟩
  cases h with
  | unplanned _ => exact hsame _ fun v hv => (hroster.valid v hv).toValid
  | @planned a b v v' hstatus hsplit hvehicle hrun hspares =>
    have hplanned := (@Vehicle.retract_replanned R {} _ v id).of_ok hrun
    have hvalid := hroster.valid v (by simp [hsplit])
    have hvalid' := hroster'.valid v' (by simp)
    have hothers (w : Vehicle R) (hw : w ∈ a ++ b) : w.schedule.Valid := by
      refine (hroster.valid w ?_).toValid
      rw [hsplit]
      rcases List.mem_append.mp hw with hw | hw <;> simp [hw]
    rw [hsplit]
    refine List.rel_append (hsame a fun w hw => hothers w (by simp [hw])) (.cons ⟨⟨hplanned.same,
      Schedule.validate_eq_ok_iff.mpr hvalid'.toValid, ?_, ?_, hspares⟩, fun hne => ?_⟩
        (hsame b fun w hw => hothers w (by simp [hw])))
    · rw [hvalid'.begins, hvalid.begins, hplanned.same]
    · rw [hvalid'.ends, hvalid.ends, hplanned.same]
    · exact (hne hvehicle).elim

/-- In a simulation that is in order, withdrawing a request is refused without any change, or does
all that it should and nothing else. -/
theorem Simulation.InOrder.withdraws (h : sim.InOrder []) (id : RequestId) (why : String) :
    (Simulation.withdraw id why).Ends sim
      (fun _ after => ¬sim.Refuses id ∧ ∃ entry, sim.Withdraws id why after entry)
      fun _ after => sim.Refuses id ∧ after = sim := by
  refine (h.withdraw_ends id why).mono ?_ fun _ _ hs => hs
  rintro - s ⟨hallowed, entry, fleet, requests, hfind, hbecomes, hfleet, hagree, rfl⟩
  have hentry : entry.id = id := Registry.find?_id hfind
  have hcancelled : requests.find? id =
      some { entry with status := .cancelled (.withdrawn why), cancelledAt := some sim.now } :=
    (hbecomes.find id).trans (if_pos hentry.symm)
  obtain ⟨harchived, hinactive⟩ := hagree.sound.mem_archive hcancelled (.inr ⟨_, rfl⟩)
  refine ⟨hallowed, entry, hfind, hcancelled, harchived, hinactive, fun other hother => ?_, ?_,
    hfleet.yields h.agreement.roster hagree.roster, rfl⟩
  · exact (hbecomes.find other).trans (if_neg fun heq => hother (heq.trans hentry))
  · refine hagree.unserved fun other hother => ?_
    cases hcancelled.symm.trans hother
    simp

/-- After any calls to a new simulation, made or refused, withdrawing a request is refused exactly
when the request is unknown or final or its passenger has begun to board, and then the simulation is
what it was. Otherwise the request is withdrawn, and nothing but its own trip is affected. -/
theorem Simulation.withdraw_all_or_nothing {scenario : Scenario R} {sim : Simulation R}
    (hnew : scenario.IsNew) (hhorizon : ∀ v ∈ scenario.fleet.vehicles, v.finish < .last)
    (hbuild : scenario.build = .ok sim) (observer : Observer R ω) (memory : ω) (calls : List Call)
    (id : RequestId) (why : String) :
    let reached := (Call.performAll observer calls ⟨sim, memory⟩).sim
    (reached.Refuses id → ∃ e, Simulation.withdraw id why reached = .error e reached) ∧
      (¬reached.Refuses id → ∃ after entry,
        Simulation.withdraw id why reached = .ok () after ∧
          reached.Withdraws id why after entry) := by
  intro reached
  have hstart : (⟨sim, memory⟩ : Observed R ω).sim.InOrder [] :=
    InOrder.of_build hnew hhorizon hbuild []
  have hreached : reached.InOrder [] := hstart.performAll calls
  have hends := hreached.withdraws id why
  cases hrun : Simulation.withdraw id why reached with
  | ok a after =>
    obtain ⟨hallowed, entry, hwithdraws⟩ := hends.of_ok hrun
    exact ⟨fun hrefuses => (hallowed hrefuses).elim, fun _ => ⟨after, entry, rfl, hwithdraws⟩⟩
  | error e after =>
    obtain ⟨hrefuses, rfl⟩ : reached.Refuses id ∧ after = reached := by
      rwa [Action.Ends, hrun] at hends
    exact ⟨fun _ => ⟨e, rfl⟩, fun hallowed => (hallowed hrefuses).elim⟩

/-- A planned request is withdrawn while another one keeps its trip. -/
theorem Simulation.withdraw_all_or_nothing_twoStops :
    let calls : List Call := [.submit ⟨⟨0⟩, ⟨0⟩, ⟨1⟩, ⟨0⟩, .zero, none⟩,
      .submit ⟨⟨1⟩, ⟨1⟩, ⟨0⟩, ⟨1⟩, .zero, none⟩, .dispatch]
    ∃ sim, Scenario.twoStops.build = .ok sim ∧
      let reached := (Call.performAll .quiet calls ⟨sim, ()⟩).sim
      ∃ after entry, Simulation.withdraw ⟨0⟩ "no longer needed" reached = .ok () after ∧
        reached.Withdraws ⟨0⟩ "no longer needed" after entry ∧ entry.status = .planned := by
  intro calls
  obtain ⟨sim, hbuild⟩ := Scenario.exists_twoStops_build
  have hhorizon : ∀ v ∈ Scenario.twoStops.fleet.vehicles, v.finish < .last := by decide +kernel
  have hcomputed : (Scenario.twoStops.build.toOption.map fun sim =>
      let reached := (Call.performAll .quiet calls ⟨sim, ()⟩).sim
      ((reached.requests.find? ⟨0⟩).map RequestEntry.status,
        ((Simulation.withdraw ⟨0⟩ "no longer needed").outcome reached).1.isOk)) =
      some (some .planned, true) := by
    decide +kernel
  rw [hbuild] at hcomputed
  obtain ⟨hplanned, hdone⟩ := Prod.mk.inj (Option.some.inj hcomputed)
  obtain ⟨hrefused, hallowed⟩ := withdraw_all_or_nothing Scenario.twoStops_isNew hhorizon hbuild
    .quiet () calls ⟨0⟩ "no longer needed"
  obtain ⟨after, entry, hrun, hwithdraws⟩ := hallowed fun hrefuses => by
    obtain ⟨e, herror⟩ := hrefused hrefuses
    simp [Action.outcome, herror, Except.isOk, Except.toBool] at hdone
  refine ⟨sim, hbuild, after, entry, hrun, hwithdraws, ?_⟩
  simpa [hwithdraws.found] using hplanned

end DemandTransport
