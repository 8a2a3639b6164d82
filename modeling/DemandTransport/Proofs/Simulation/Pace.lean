import DemandTransport.Proofs.Simulation.Counters
import DemandTransport.Proofs.Simulation.Progress
import Mathlib.Algebra.Order.Floor.Div
import Mathlib.Order.Bounds.Defs

/-!
# As many steps as announced

The settings of a run tell beforehand how many steps there will be: the seconds from begin to end by
the length of a step, rounded up. The run itself never counts its steps but compares the time with
the end before each of them. Clock and counts are functions of the number of steps made, whatever
happens in them, so that both ways come to the same.
-/

namespace DemandTransport

variable {R ω : Type} [Scalar R]

/-! ## The settings -/

theorem ceilDiv_le_iff {n divisor k : Nat} (h : 0 < divisor) :
    ceilDiv n divisor ≤ k ↔ n ≤ divisor * k := by
  rw [ceilDiv, ← Nat.ceilDiv_eq_add_pred_div, ceilDiv_le_iff_le_mul h]

/-- The quotient rounded up grows by one behind each multiple of the divisor. -/
theorem ceilDiv_succ (n : Nat) {divisor : Nat} (h : 0 < divisor) :
    ceilDiv (n + 1) divisor = ceilDiv n divisor + if n % divisor = 0 then 1 else 0 := by
  obtain ⟨d, rfl⟩ := Nat.exists_eq_succ_of_ne_zero h.ne'
  have hsucc := @Nat.succ_div (n + d) (d + 1)
  have hdvd : d + 1 ∣ n + d + 1 ↔ n % (d + 1) = 0 := by
    rw [Nat.add_assoc, Nat.dvd_add_left (Nat.dvd_refl _), Nat.dvd_iff_mod_eq_zero]
  simp only [hdvd] at hsucc
  simpa only [ceilDiv, Nat.succ_eq_add_one, Nat.add_sub_cancel, Nat.add_right_comm, ← Nat.add_assoc]
    using hsucc

namespace RunConfig

variable {config : RunConfig} {n : Nat}

/-- The clock after a number of steps. -/
def clockAt (config : RunConfig) (n : Nat) : Clock := { config.clock with step := n }

/-- How many of the first steps are dispatch steps. -/
def cyclesWithin (config : RunConfig) (n : Nat) : Nat :=
  if config.dispatchInterval = 0 then 0 else ceilDiv n config.dispatchInterval

theorem cyclesWithin_zero (config : RunConfig) : config.cyclesWithin 0 = 0 := by
  unfold cyclesWithin ceilDiv
  split
  · rfl
  · exact Nat.div_eq_of_lt (by omega)

theorem cyclesWithin_succ (config : RunConfig) (n : Nat) :
    config.cyclesWithin (n + 1) =
      config.cyclesWithin n + if config.isDispatchStep n then 1 else 0 := by
  unfold cyclesWithin isDispatchStep
  split
  next hnever => simp [hnever]
  next hoften =>
    have hpos : 0 < config.dispatchInterval := Nat.pos_of_ne_zero hoften
    simp [ceilDiv_succ n hpos, hpos]

/-- Before the announced number of steps, and not after it, the end lies ahead. -/
theorem lt_totalSteps_iff (h : config.stepSecs ≠ 0) :
    n < config.totalSteps ↔ config.start.secs + n * config.stepSecs < config.finish.secs := by
  have hstep : max config.stepSecs 1 = config.stepSecs := by omega
  rw [← Nat.not_le, totalSteps, hstep, ceilDiv_le_iff (Nat.pos_of_ne_zero h), Nat.mul_comm,
    Time.since]
  omega

/-- The clock comes to the same as long as it has not run over. -/
theorem now_lt_finish_iff (h : config.stepSecs ≠ 0) (hrange : (config.clockAt n).InRange) :
    (config.clockAt n).now < config.finish ↔ n < config.totalSteps := by
  have hfinish := config.finish.secs_le
  rw [lt_totalSteps_iff h, hrange.now_eq, Time.lt_iff]
  change min (config.start.secs + n * config.stepSecs) wordLimit < _ ↔ _
  omega

/-- There are no more steps than seconds. -/
theorem totalSteps_le (config : RunConfig) : config.totalSteps ≤ wordLimit := by
  have hpos : 0 < max config.stepSecs 1 := by omega
  have hfinish := config.finish.secs_le
  rw [totalSteps, ceilDiv_le_iff hpos]
  have hsecs := Nat.le_mul_of_pos_left wordLimit hpos
  unfold Time.since
  omega

/-- The announced number of steps takes the clock to the first time of a step that is not before the
end. -/
theorem isLeast_totalSteps (h : config.stepSecs ≠ 0) :
    IsLeast
      {t | config.finish.secs ≤ t ∧ ∃ n, t = config.start.secs + n * config.stepSecs}
      (config.start.secs + config.totalSteps * config.stepSecs) := by
  refine ⟨⟨?_, _, rfl⟩, ?_⟩
  · exact Nat.le_of_not_lt fun hlt => Nat.lt_irrefl _ ((lt_totalSteps_iff h).mpr hlt)
  · rintro _ ⟨hfinish, n, rfl⟩
    have hsteps : config.totalSteps ≤ n :=
      Nat.le_of_not_lt fun hlt => Nat.not_le.mpr ((lt_totalSteps_iff h).mp hlt) hfinish
    exact Nat.add_le_add_left (Nat.mul_le_mul_right _ hsteps) _

end RunConfig

/-! ## A step -/

/-- How far a simulation has come, told by its clock and by its counts. -/
structure Simulation.Paced (config : RunConfig) (steps cycles : Nat) (sim : Simulation R) :
    Prop where
  settings : sim.config = config
  clock : sim.clock = config.clockAt steps
  steps : sim.stats.steps = steps
  cycles : sim.stats.cycles = cycles

/-- Events are neither steps nor cycles. -/
theorem RunStats.recordEvent_pace (stats : RunStats R) (event : TaskEvent R) :
    (stats.recordEvent event).steps = stats.steps ∧
      (stats.recordEvent event).cycles = stats.cycles := by
  obtain ⟨used, charged, heq⟩ := stats.recordEvent_eq event
  rw [heq]
  obtain ⟨_, _, phase, activity, _, _⟩ := event
  cases phase <;> cases activity with
  | charge _ plugged => cases plugged <;> exact ⟨rfl, rfl⟩
  | stay | drive | pickup _ | dropoff _ => exact ⟨rfl, rfl⟩

namespace Simulation.Paced

variable {config : RunConfig} {steps cycles : Nat} {sim : Simulation R}

omit [Scalar R] in
theorem releaseDue (h : sim.Paced config steps cycles) {now : Time} {arrivals : List Request} :
    (releaseDue now arrivals).Ends sim (fun _ s => s.Paced config steps cycles)
      fun _ s => s.Paced config steps cycles :=
  releaseDue_ends (Q := fun _ s => s.Paced config steps cycles)
    (fun _ _ _ hs _ => release_ends (fun _ _ => ⟨hs.settings, hs.clock, hs.steps, hs.cycles⟩)
      fun _ _ => ⟨hs.settings, hs.clock, hs.steps, hs.cycles⟩)
    (fun _ _ _ hs => ⟨hs.settings, hs.clock, hs.steps, hs.cycles⟩) h

theorem execute (h : sim.Paced config steps cycles) {now : Time} :
    (execute now).Ends sim (fun _ s => s.Paced config steps cycles)
      fun _ s => s.Paced config steps cycles := by
  simp only [Simulation.execute, Action.ends_mapError, Action.ends_within]
  exact .of_forall (fun _ _ => ⟨h.settings, h.clock, h.steps, h.cycles⟩)
    fun _ _ => ⟨h.settings, h.clock, h.steps, h.cycles⟩

theorem apply (h : sim.Paced config steps cycles) {events : List (TaskEvent R)} :
    (apply events).Ends sim (fun _ s => s.Paced config steps cycles)
      fun _ s => s.Paced config steps cycles := by
  refine @apply_keeps R _ sim (fun _ => True) (Paced config steps cycles) ?_ events
    (fun _ _ => trivial) h
  intro s event _ _ _ hs
  obtain ⟨hsteps, hcycles⟩ := s.stats.recordEvent_pace event
  exact ⟨hs.settings, hs.clock, hsteps.trans hs.steps, hcycles.trans hs.cycles⟩

theorem dispatchCycle (h : sim.Paced config steps cycles) :
    dispatchCycle.Ends sim (fun _ s => s.Paced config steps (cycles + 1)) fun _ _ => True := by
  have hends := @dispatchCycle_ends R _ sim (fun _ _ _ => True) (fun _ _ => True)
    (.of_forall (fun _ _ => .of_forall (fun _ _ => trivial) fun _ _ => trivial) fun _ _ => trivial)
  refine hends.mono ?_ fun _ _ _ => trivial
  rintro report _ ⟨fleet, requests, -, rfl⟩
  exact ⟨h.settings, h.clock, h.steps, congrArg (· + 1) h.cycles⟩

omit [Scalar R] in
theorem tick (h : sim.Paced config steps cycles) :
    tick.Ends sim (fun _ s => s.Paced config (steps + 1) cycles) fun _ _ => False := by
  simp only [Simulation.tick, count, Action.ends_bind, Action.ends_modify]
  exact ⟨h.settings, congrArg Clock.advance h.clock, congrArg (· + 1) h.steps, h.cycles⟩

end Simulation.Paced

namespace Observed

variable {config : RunConfig} {n k : Nat} {observer : Observer R ω}
  {state reached : Observed R ω}

/-- A step is counted, and with it the dispatch cycle if one is due. -/
theorem step_paced (h : state.sim.Paced config n (config.cyclesWithin n)) :
    (step observer).Ends state
      (fun _ s => s.sim.Paced config (n + 1) (config.cyclesWithin (n + 1))) fun _ _ => True := by
  have hdue : state.sim.config.isDispatchStep state.sim.clock.step = config.isDispatchStep n := by
    rw [h.settings, h.clock]
    rfl
  have htick {cycles : Nat} {sim : Simulation R} (hsim : sim.Paced config n cycles)
      (hcycles : config.cyclesWithin (n + 1) = cycles) :
      Simulation.tick.Ends sim
        (fun _ s => s.Paced config (n + 1) (config.cyclesWithin (n + 1))) fun _ _ => True :=
    hcycles ▸ hsim.tick.of_no_failure
  simp only [step, tell, onSim_ends, Action.ends_bind, Action.ends_get, Action.ends_modify, hdue]
  refine h.releaseDue.mono (fun _ released hreleased => ?_) fun _ _ _ => trivial
  refine hreleased.execute.mono (fun events executed hexecuted => ?_) fun _ _ _ => trivial
  refine hexecuted.apply.mono (fun _ applied happlied => ?_) fun _ _ _ => trivial
  have hnext := config.cyclesWithin_succ n
  cases hcycle : config.isDispatchStep n with
  | false =>
    simp only [hcycle, Bool.false_eq_true, if_false, Nat.add_zero] at hnext ⊢
    split <;> simp only [Action.ends_bind, Action.ends_modify, onSim_ends] <;>
      exact htick happlied hnext
  | true =>
    simp only [hcycle, if_true] at hnext ⊢
    have hcycled := happlied.dispatchCycle
    split <;> simp only [Action.ends_bind, Action.ends_modify, onSim_ends] <;>
      exact hcycled.mono (fun _ _ hs => htick hs hnext) fun _ _ _ => trivial

/-- So is a number of steps. -/
theorem runSteps_paced (h : state.sim.Paced config n (config.cyclesWithin n)) (k : Nat) :
    (runSteps observer k).Ends state
      (fun _ s => s.sim.Paced config (n + k) (config.cyclesWithin (n + k))) fun _ _ => True := by
  induction k generalizing n state with
  | zero => exact h
  | succ k ih =>
    rw [runSteps, Action.ends_bind, Nat.add_comm k, ← Nat.add_assoc]
    exact (step_paced h).mono (fun _ _ hs => ih hs) fun _ _ _ => trivial

/-! ## A run -/

/-- Steps are made as long as the end lies ahead; then the observer is told that it has been
reached. There is no bound to the number of steps. -/
inductive RunsTo (observer : Observer R ω) :
    Observed R ω → EStateM.Result (SimulationError R) (Observed R ω) Unit → Prop where
  /-- The end has been reached. -/
  | ended {state : Observed R ω} (h : ¬state.sim.now < state.sim.config.finish) :
    RunsTo observer state (tell observer (.runEnds state.sim.now state.sim.stats) state)
  /-- A step fails. -/
  | failed {state left : Observed R ω} {cause : SimulationError R}
    (h : state.sim.now < state.sim.config.finish)
    (hstep : step observer state = .error cause left) :
    RunsTo observer state (.error cause left)
  /-- A step is made, and others after it. -/
  | again {state next : Observed R ω}
    {result : EStateM.Result (SimulationError R) (Observed R ω) Unit}
    (h : state.sim.now < state.sim.config.finish) (hstep : step observer state = .ok () next)
    (rest : RunsTo observer next result) : RunsTo observer state result

/-- Tell the observer that the run has reached its end. -/
def announceEnd (observer : Observer R ω) : Action (SimulationError R) (Observed R ω) Unit := do
  let state ← get
  tell observer (.runEnds state.sim.now state.sim.stats)

omit [Scalar R] in
/-- The end lies ahead until the announced number of steps has been made. -/
theorem now_lt_finish_iff (hstep : config.stepSecs ≠ 0)
    (h : state.sim.Paced config n (config.cyclesWithin n)) (hrange : (config.clockAt n).InRange) :
    state.sim.now < state.sim.config.finish ↔ n < config.totalSteps := by
  rw [Simulation.now, h.settings, h.clock, RunConfig.now_lt_finish_iff hstep hrange]

section Whole

variable (hstep : config.stepSecs ≠ 0) (hend : (config.clockAt config.totalSteps).InRange)
  (hrange : (config.clockAt n).InRange) (h : state.sim.Paced config n (config.cyclesWithin n))

include hstep hend hrange h

/-- As long as the bound allows for them, the steps left are made, no more and no fewer. -/
theorem runWithin_eq {bound : Nat} (hbound : config.totalSteps - n ≤ bound) :
    runWithin observer bound state = runSteps observer (config.totalSteps - n) state := by
  induction bound generalizing n state with
  | zero =>
    rw [Nat.le_zero.mp hbound]
    rfl
  | succ bound ih =>
    have hget : (get : Action (SimulationError R) (Observed R ω) _) state = .ok state state := rfl
    have hahead_iff := now_lt_finish_iff hstep h hrange
    rw [runWithin, Action.bind_of_ok hget]
    split
    next hahead =>
      have hlt := hahead_iff.mp hahead
      have hleft : config.totalSteps - n = config.totalSteps - (n + 1) + 1 := by omega
      rw [hleft, runSteps]
      refine Action.bind_congr rfl fun _ next hnext => ?_
      exact ih (hend.of_le hlt) ((step_paced h).of_ok hnext) (by omega)
    next hreached =>
      have hleft : config.totalSteps - n = 0 :=
        Nat.sub_eq_zero_of_le (Nat.le_of_not_lt (mt hahead_iff.mpr hreached))
      rw [hleft]
      rfl

/-- A run makes the steps that are left of the announced ones. -/
theorem run_eq :
    run observer state =
      (do runSteps observer (config.totalSteps - n); announceEnd observer) state := by
  have henough : config.totalSteps - n ≤ wordLimit + 1 :=
    Nat.le_trans (Nat.sub_le _ _) (Nat.le_succ_of_le config.totalSteps_le)
  exact Action.bind_congr (runWithin_eq hstep hend hrange h henough) fun _ _ _ => rfl

/-- These are the steps that are made if there is no bound. -/
theorem runsTo_runSteps :
    RunsTo observer state
      ((do runSteps observer (config.totalSteps - n); announceEnd observer) state) := by
  have hahead_iff := now_lt_finish_iff hstep h hrange
  generalize hleft : config.totalSteps - n = left
  induction left generalizing n state with
  | zero =>
    refine .ended fun hahead => ?_
    have := hahead_iff.mp hahead
    omega
  | succ left ih =>
    have hlt : n < config.totalSteps := by omega
    rw [runSteps, bind_assoc]
    cases hrun : step observer state with
    | error cause left =>
      rw [Action.bind_of_error hrun]
      exact .failed (hahead_iff.mpr hlt) hrun
    | ok _ next =>
      rw [Action.bind_of_ok hrun]
      have hnext := (step_paced h).of_ok hrun
      have hrange' := hend.of_le hlt
      exact .again (hahead_iff.mpr hlt) hrun
        (ih hrange' hnext (now_lt_finish_iff hstep hnext hrange') (by omega))

/-- At its end a run has come as far as announced, or stays where it is beyond that. -/
theorem run_paced :
    (run observer).Ends state
      (fun _ s => s.sim.Paced config (max n config.totalSteps)
        (config.cyclesWithin (max n config.totalSteps))) fun _ _ => True := by
  have hends : (do runSteps observer (config.totalSteps - n); announceEnd observer).Ends state
      (fun _ s => s.sim.Paced config (n + (config.totalSteps - n))
        (config.cyclesWithin (n + (config.totalSteps - n)))) fun _ _ => True := by
    rw [Action.ends_bind]
    exact runSteps_paced h _
  rw [Nat.max_comm, ← Nat.sub_add_eq_max, Nat.add_comm]
  rwa [Action.Ends, run_eq hstep hend hrange h]

end Whole

end Observed

/-- At its begin a run has made no step. -/
theorem Scenario.build_paced {scenario : Scenario R} {sim : Simulation R}
    (h : scenario.build = .ok sim) :
    scenario.config.stepSecs ≠ 0 ∧
      sim.Paced scenario.config 0 (scenario.config.cyclesWithin 0) := by
  obtain ⟨dispatcher, planner, chargers, hconfig, -, -, -, rfl⟩ := build_eq h
  refine ⟨fun hzero => by simp [checkConfig, hzero] at hconfig, rfl, rfl, rfl, ?_⟩
  exact scenario.config.cyclesWithin_zero.symm

/-- A run of a new simulation comes to an end. If no step fails, it makes the announced number of
steps, which take it to the first time of a step that is not before the end, and as many dispatch
cycles as the interval between them goes into these steps, rounded up. If some steps have been made
before, in which the clock has not run over, the run makes those that are left, and none if there
were more. -/
theorem Simulation.run_takes_totalSteps {scenario : Scenario R} {sim : Simulation R}
    (hbuild : scenario.build = .ok sim)
    (hrange : scenario.config.start.secs + scenario.config.totalSteps * scenario.config.stepSecs ≤
      wordLimit)
    (observer : Observer R ω) (memory : ω) :
    let config := scenario.config
    Observed.RunsTo observer ⟨sim, memory⟩ (Observed.run observer ⟨sim, memory⟩) ∧
    (∀ reached, Observed.run observer ⟨sim, memory⟩ = .ok () reached →
      reached.sim.stats.steps = config.totalSteps ∧
      reached.sim.now.secs = config.start.secs + config.totalSteps * config.stepSecs ∧
      IsLeast
        {t | config.finish.secs ≤ t ∧ ∃ n, t = config.start.secs + n * config.stepSecs}
        reached.sim.now.secs ∧
      reached.sim.stats.cycles =
        if config.dispatchInterval = 0 then 0
        else ceilDiv config.totalSteps config.dispatchInterval) ∧
    ∀ k stopped, Observed.runSteps observer k ⟨sim, memory⟩ = .ok () stopped →
      stopped.sim.clock.InRange →
      Observed.RunsTo observer stopped (Observed.run observer stopped) ∧
      Observed.run observer stopped =
        (do Observed.runSteps observer (config.totalSteps - k); Observed.announceEnd observer)
          stopped ∧
      ∀ reached, Observed.run observer stopped = .ok () reached →
        reached.sim.stats.steps = stopped.sim.stats.steps + (config.totalSteps - k) := by
  intro config
  obtain ⟨hstep, hstart⟩ := Scenario.build_paced hbuild
  have hend : (config.clockAt config.totalSteps).InRange :=
    Nat.le_trans (Nat.le_add_left _ _) hrange
  have hbegin : (config.clockAt 0).InRange := hend.of_le (Nat.zero_le _)
  have hends {k : Nat} {stopped : Observed R ω} (hk : (config.clockAt k).InRange)
      (h : stopped.sim.Paced config k (config.cyclesWithin k)) :
      Observed.RunsTo observer stopped (Observed.run observer stopped) := by
    rw [Observed.run_eq hstep hend hk h]
    exact Observed.runsTo_runSteps hstep hend hk h
  refine ⟨hends hbegin hstart, fun reached hrun => ?_, fun k stopped hsteps hk => ?_⟩
  · have hlast : reached.sim.Paced _ _ _ :=
      (Observed.run_paced hstep hend hbegin hstart).of_ok hrun
    rw [Nat.zero_max] at hlast
    have hnow : reached.sim.now.secs =
        config.start.secs + config.totalSteps * config.stepSecs := by
      rw [Simulation.now, hlast.clock, hend.now_eq]
      exact Nat.min_eq_left hrange
    refine ⟨hlast.steps, hnow, ?_, hlast.cycles⟩
    rw [hnow]
    exact RunConfig.isLeast_totalSteps hstep
  · have hstopped : stopped.sim.Paced _ _ _ := (Observed.runSteps_paced hstart k).of_ok hsteps
    rw [Nat.zero_add] at hstopped
    rw [hstopped.clock] at hk
    refine ⟨hends hk hstopped, Observed.run_eq hstep hend hk hstopped, fun reached hrun => ?_⟩
    have hlast := (Observed.run_paced hstep hend hk hstopped).of_ok hrun
    rw [hlast.steps, hstopped.steps]
    change max k config.totalSteps = _
    omega

/-- The last of thirteen steps of 700 seconds goes beyond the end after 9000 seconds. When four
steps have been made before, nine more follow. -/
theorem Simulation.run_takes_totalSteps_twoStops :
    ∃ sim, Scenario.twoStops.build = .ok sim ∧ Scenario.twoStops.config.totalSteps = 13 ∧
      (∃ reached, Observed.run .quiet ⟨sim, ()⟩ = .ok () reached ∧
        reached.sim.stats.steps = 13 ∧ reached.sim.now.secs = 9100 ∧
        reached.sim.stats.cycles = 13) ∧
      ∃ stopped, Observed.runSteps .quiet 4 ⟨sim, ()⟩ = .ok () stopped ∧
        stopped.sim.clock.InRange ∧
        Observed.run .quiet stopped =
          (do Observed.runSteps .quiet 9; Observed.announceEnd .quiet) stopped := by
  obtain ⟨sim, hbuild⟩ := Scenario.exists_twoStops_build
  have hhorizon : ∀ v ∈ Scenario.twoStops.fleet.vehicles, v.finish < .last := by decide +kernel
  obtain ⟨hsucceed, -⟩ := @steps_succeed Rat Unit _ _ sim Scenario.twoStops_isNew hhorizon hbuild
    .quiet () [] (by decide) (by decide)
  have htotal : Scenario.twoStops.config.totalSteps = 13 := by decide
  obtain ⟨-, hreached, hfurther⟩ :=
    run_takes_totalSteps hbuild (by decide) (.quiet : Observer Rat Unit) ()
  obtain ⟨last, hlast⟩ := hsucceed 13
  obtain ⟨stopped, hstopped⟩ := hsucceed 4
  have hbegins : sim.Paced _ _ _ := (Scenario.build_paced hbuild).2
  have hbegin : sim.clock.InRange := by
    rw [hbegins.clock]
    decide
  have hpaced : stopped.sim.Paced _ _ _ := (Observed.runSteps_paced hbegins 4).of_ok hstopped
  have hrange : stopped.sim.clock.InRange := by
    rw [hpaced.clock]
    decide
  have hrun := (hfurther 0 ⟨sim, ()⟩ rfl hbegin).2.1.trans (Action.bind_of_ok hlast _)
  obtain ⟨hsteps, hnow, -, hcycles⟩ := hreached _ hrun
  exact ⟨sim, hbuild, htotal, ⟨_, hrun, hsteps, hnow, hcycles⟩, stopped, hstopped, hrange,
    (hfurther 4 stopped hstopped hrange).2.1⟩

end DemandTransport
