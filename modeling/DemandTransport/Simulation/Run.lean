import DemandTransport.Simulation.Step

/-!
# Runs and their observers

An observer is told what happens in the course of a run. What it makes of it is its own affair: a
run with one observer leaves the same simulation as a run with any other.
-/

namespace DemandTransport

variable {R ω : Type} [Scalar R]

/-- What an observer is told. -/
inductive Notice (R : Type) where
  /-- A step begins. -/
  | stepBegins (now : Time)
  /-- Events have happened in a step. -/
  | events (now : Time) (events : List (TaskEvent R))
  /-- A dispatch cycle has taken place. -/
  | dispatched (report : DispatchReport R)
  /-- A step ends. -/
  | stepEnds (now : Time)
  /-- The run has reached its end. -/
  | runEnds (now : Time) (stats : RunStats R)
  deriving Repr

/-- An observer with memory of type `ω`. -/
abbrev Observer (R ω : Type) := Notice R → ω → ω

/-- The observer that remembers nothing. -/
def Observer.quiet : Observer R Unit := fun _ _ => ()

/-- A simulation with the memory of its observer. -/
structure Observed (R ω : Type) where
  /-- The simulation. -/
  sim : Simulation R
  /-- What the observer remembers. -/
  memory : ω

namespace Observed

/-- An action on the simulation. -/
def onSim {α : Type} (action : Action (SimulationError R) (Simulation R) α) :
    Action (SimulationError R) (Observed R ω) α :=
  Action.within Observed.sim (fun sim state => { state with sim := sim }) action

/-- Tell the observer. -/
def tell (observer : Observer R ω) (notice : Notice R) :
    Action (SimulationError R) (Observed R ω) Unit :=
  modify fun state => { state with memory := observer notice state.memory }

/-- Make one step. -/
def step (observer : Observer R ω) : Action (SimulationError R) (Observed R ω) Unit := do
  let start ← get
  let now := start.sim.now
  tell observer (.stepBegins now)
  onSim (Simulation.releaseDue now start.sim.arrivals)
  let events ← onSim (Simulation.execute now)
  onSim (Simulation.apply events)
  if !events.isEmpty then tell observer (.events now events)
  if start.sim.config.isDispatchStep start.sim.clock.step then
    let report ← onSim Simulation.dispatchCycle
    tell observer (.dispatched report)
  tell observer (.stepEnds now)
  onSim Simulation.tick

/-- Make a number of steps, whether or not the run ends before. -/
def runSteps (observer : Observer R ω) : Nat → Action (SimulationError R) (Observed R ω) Unit
  | 0 => pure ()
  | steps + 1 => do
    step observer
    runSteps observer steps

/-- Make steps, at most a number of them, until the clock reaches the end of the run. -/
def runWithin (observer : Observer R ω) : Nat → Action (SimulationError R) (Observed R ω) Unit
  | 0 => pure ()
  | steps + 1 => do
    let state ← get
    if state.sim.now < state.sim.config.finish then
      step observer
      runWithin observer steps

/-- Make steps until the clock reaches the end of the run. The clock comes round after as many steps
as there are words, so a run that has not reached its end by then never does. -/
def run (observer : Observer R ω) : Action (SimulationError R) (Observed R ω) Unit := do
  runWithin observer (wordLimit + 1)
  let state ← get
  tell observer (.runEnds state.sim.now state.sim.stats)

end Observed

namespace Simulation

/-- An action without an observer. -/
def unobserved {α : Type} (action : Action (SimulationError R) (Observed R Unit) α) :
    Action (SimulationError R) (Simulation R) α :=
  Action.within (fun sim => ⟨sim, ()⟩) (fun state _ => state.sim) action

/-- Make one step. -/
def step : Action (SimulationError R) (Simulation R) Unit := unobserved (Observed.step .quiet)

/-- Make a number of steps, whether or not the run ends before. -/
def runSteps (steps : Nat) : Action (SimulationError R) (Simulation R) Unit :=
  unobserved (Observed.runSteps .quiet steps)

/-- Make steps until the clock reaches the end of the run. -/
def run : Action (SimulationError R) (Simulation R) Unit := unobserved (Observed.run .quiet)

end Simulation

end DemandTransport
