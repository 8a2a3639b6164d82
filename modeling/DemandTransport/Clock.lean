import DemandTransport.Time

/-!
# The clock of a run

A run advances in steps of equal length. The clock counts completed steps and tells the time at the
current one.
-/

namespace DemandTransport

/-- A quotient rounded up. -/
def ceilDiv (n divisor : Nat) : Nat := (n + divisor - 1) / divisor

/-- The current step of a run. -/
structure Clock where
  /-- The time at step zero. -/
  start : Time
  /-- Seconds from one step to the next. -/
  stepSecs : Nat
  /-- Completed steps. -/
  step : Nat := 0
  deriving DecidableEq, Repr

namespace Clock

/-- The time at the current step. The seconds since step zero are counted in a word and run over
with it, while adding them to the start stops at the last instant there is. -/
def now (c : Clock) : Time := c.start.offset (c.step * c.stepSecs % (wordLimit + 1))

/-- The clock one step later. -/
def advance (c : Clock) : Clock := { c with step := c.step + 1 }

/-- Steps that are enough for `secs` seconds. -/
def stepsFor (c : Clock) (secs : Nat) : Nat := ceilDiv secs c.stepSecs

/-- The step and its time. -/
def text (c : Clock) : String := "step " ++ Decimal.ofNat c.step ++ " (" ++ c.now.text ++ ")"

end Clock

end DemandTransport
