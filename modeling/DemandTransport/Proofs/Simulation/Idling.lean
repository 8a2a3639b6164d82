import DemandTransport.Proofs.Execution.Settling
import DemandTransport.Proofs.Simulation.Calls

/-!
# Steps in which nothing is due

While no request is to come, no vehicle has anything to do and no requests are dispatched, a step
moves the clock and counts itself. So a simulation is known after any number of such steps, though
they may be too many to be made one by one.
-/

namespace DemandTransport

variable {R ω : Type} [Scalar R] {now : Time}

namespace FleetState

/-- Vehicles that have nothing to do stay as they are. -/
theorem advanceEach_of_atRest {pairs : List (Vehicle R × Movement)} (pool : ChargerPool R)
    (h : ∀ v ∈ pairs.map Prod.fst, v.schedule.AtRest now) :
    advanceEach now pairs pool = ((pairs.map fun _ => []).map Except.ok, pairs, pool) := by
  induction pairs with
  | nil => rfl
  | cons pair rest ih =>
    obtain ⟨hfirst, hothers⟩ := List.forall_mem_cons.mp h
    have hadvance : VehicleState.advance now ⟨pair.1, pair.2, pool⟩ =
        .ok [] ⟨pair.1, pair.2, pool⟩ :=
      VehicleState.advanceUpTo_of_atRest hfirst
    simp [advanceEach, Action.outcome, hadvance, ih hothers]

/-- So does the whole fleet. -/
theorem advance_of_atRest {state : FleetState R}
    (hmovements : state.movements.length = state.fleet.size)
    (h : ∀ v ∈ state.fleet.vehicles, v.schedule.AtRest now) :
    advance now state = .ok [] state := by
  have hvehicles : (state.fleet.vehicles.zip state.movements).map Prod.fst = state.fleet.vehicles :=
    List.map_fst_zip (Nat.le_of_eq hmovements.symm)
  have hplaces : (state.fleet.vehicles.zip state.movements).map Prod.snd = state.movements :=
    List.map_snd_zip (Nat.le_of_eq hmovements)
  have heach := @advanceEach_of_atRest R _ now _ state.chargers (hvehicles.symm ▸ h)
  rw [advance_eq hmovements heach, hvehicles, hplaces]
  simp

end FleetState

namespace Simulation

/-- A simulation that has made a number of steps in which nothing was due. -/
def waited (sim : Simulation R) (steps : Nat) : Simulation R :=
  { sim with
    clock := { sim.clock with step := sim.clock.step + steps }
    stats := { sim.stats with steps := sim.stats.steps + steps } }

/-- Nobody has asked for anything, and dispatching is left to the callers. -/
structure Waits (sim : Simulation R) : Prop where
  arrivals : sim.arrivals = []
  cadence : sim.config.dispatchInterval = 0
  movements : sim.movements.length = sim.fleet.size

omit [Scalar R] in
theorem waited_waited (sim : Simulation R) (steps more : Nat) :
    (sim.waited steps).waited more = sim.waited (steps + more) := by
  simp only [waited, Nat.add_assoc]

omit [Scalar R] in
theorem Waits.waited {sim : Simulation R} (h : sim.Waits) (steps : Nat) :
    (sim.waited steps).Waits :=
  ⟨h.arrivals, h.cadence, h.movements⟩

end Simulation

namespace Observed

variable {observer : Observer R ω} {state : Observed R ω}

/-- A step in which nothing is due moves the clock and counts itself. -/
theorem step_waits (h : state.sim.Waits)
    (hrest : ∀ v ∈ state.sim.fleet.vehicles, v.schedule.AtRest state.sim.now) :
    (step observer).Ends state (fun _ s => s.sim = state.sim.waited 1) fun _ _ => False := by
  have hexecute : Simulation.execute state.sim.now state.sim = .ok [] state.sim := by
    have hadvance := @FleetState.advance_of_atRest R _ state.sim.now
      ⟨state.sim.fleet, state.sim.movements, state.sim.chargers⟩ h.movements hrest
    simp only [Simulation.execute, Action.mapError, Action.within, hadvance]
  have hsilent : state.sim.config.isDispatchStep state.sim.clock.step = false := by
    simp [RunConfig.isDispatchStep, h.cadence]
  have harrivals : { state.sim with arrivals := [] } = state.sim := by
    rw [← h.arrivals]
  simp only [step, tell, onSim_ends, Action.ends_bind, Action.ends_get, Action.ends_modify,
    h.arrivals, Simulation.releaseDue, harrivals, hsilent]
  refine Action.ends_of_run hexecute ?_
  simp only [Simulation.apply, Action.ends_pure, List.isEmpty_nil, Bool.not_true,
    Bool.false_eq_true, if_false, Action.ends_bind, Action.ends_modify, onSim_ends,
    Simulation.tick, Simulation.count]
  rfl

/-- So do any number of them. -/
theorem runSteps_waits {steps : Nat} (h : state.sim.Waits)
    (hrest : ∀ step < steps, ∀ v ∈ state.sim.fleet.vehicles,
      v.schedule.AtRest (state.sim.waited step).now) :
    (runSteps observer steps).Ends state (fun _ s => s.sim = state.sim.waited steps)
      fun _ _ => False := by
  induction steps generalizing state with
  | zero => exact rfl
  | succ steps ih =>
    rw [runSteps, Action.ends_bind]
    refine (step_waits h (hrest 0 (Nat.succ_pos steps))).mono (fun _ s hs => ?_) fun _ _ hf => hf
    have hlater : ∀ step < steps, ∀ v ∈ s.sim.fleet.vehicles,
        v.schedule.AtRest (s.sim.waited step).now := by
      rw [hs]
      intro step hstep
      rw [Simulation.waited_waited, Nat.add_comm]
      exact hrest (step + 1) (Nat.succ_lt_succ hstep)
    refine (ih (hs ▸ h.waited 1) hlater).mono (fun _ t ht => ?_) fun _ _ hf => hf
    rw [ht, hs, Simulation.waited_waited, Nat.add_comm]

end Observed

/-- A call for any number of steps is known if nothing is due after the first one. -/
theorem Call.performAll_waits {sim : Simulation R} {begun : Observed R Unit} {steps : Nat}
    (hstep : Observed.step .quiet ⟨sim, ()⟩ = .ok () begun) (h : begun.sim.Waits)
    (hrest : ∀ step < steps, ∀ v ∈ begun.sim.fleet.vehicles,
      v.schedule.AtRest (begun.sim.waited step).now) (calls : List Call) :
    performAll .quiet (.runSteps (steps + 1) :: calls) ⟨sim, ()⟩ =
      performAll .quiet calls ⟨begun.sim.waited steps, ()⟩ := by
  obtain ⟨_, last, hrun, hlast⟩ := (Observed.runSteps_waits h hrest).exists_ok
  have hall : Call.perform .quiet (.runSteps (steps + 1)) ⟨sim, ()⟩ = .ok () last :=
    (Action.bind_of_ok hstep _).trans hrun
  rw [performAll, List.foldl_cons, Action.outcome, hall, ← hlast]
  rfl

end DemandTransport
