import DemandTransport.Clock

/-!
# The settings of a run

When a run begins and ends, how long its steps are, and at which of them requests are dispatched.
-/

namespace DemandTransport

/-- The settings of a run. -/
structure RunConfig where
  /-- When the run begins. -/
  start : Time := .zero
  /-- When the run ends; no step is made at this instant. -/
  finish : Time := .ofSecs 86400
  /-- Seconds from one step to the next. -/
  stepSecs : Nat := 1
  /-- Requests are dispatched at every step whose number is a multiple of this one. -/
  dispatchInterval : Nat := 60
  /-- The seed of random demand. -/
  seed : Nat := 42
  /-- Workers to be used, where work is shared among several. -/
  threads : Option Nat := none
  deriving DecidableEq, Repr

namespace RunConfig

/-- How many steps there are from the begin to the end. -/
def totalSteps (config : RunConfig) : Nat :=
  ceilDiv (config.finish.since config.start) (max config.stepSecs 1)

/-- Whether requests are dispatched at a step. -/
def isDispatchStep (config : RunConfig) (step : Nat) : Bool :=
  0 < config.dispatchInterval && step % config.dispatchInterval == 0

/-- The clock at the begin of the run. -/
def clock (config : RunConfig) : Clock := { start := config.start, stepSecs := config.stepSecs }

end RunConfig

end DemandTransport
