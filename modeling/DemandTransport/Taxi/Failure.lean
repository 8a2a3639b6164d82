import DemandTransport.Simulation.Basic

/-!
# Failures of the taxi service

A failure is told together with the chain of its causes, each of which says more than the one
before. A cause that is passed on unchanged is told only once.
-/

namespace DemandTransport

/-- The causes behind an energy error. -/
def EnergyError.causes : EnergyError Float → List String
  | .network cause => [cause.message]
  | .unreadable reason => [reason]
  | _ => []

/-- The causes behind a fleet error. -/
def FleetError.causes : FleetError Float → List String
  | .schedule _ cause => [cause.message]
  | .energy cause => cause.causes
  | .unreadable reason => [reason]
  | _ => []

/-- The causes behind a demand error. -/
def DemandError.causes : DemandError → List String
  | .unreadable reason => [reason]
  | _ => []

/-- The causes behind a dispatch error. -/
def DispatchError.causes : DispatchError Float → List String
  | .invalidInsertion _ cause => [cause.message]
  | .fleet cause => cause.causes
  | .demand cause => cause.causes
  | .energy cause => cause.causes
  | _ => []

/-- The causes behind an execution error. -/
def ExecutionError.causes : ExecutionError Float → List String
  | .mismatch _ _ => []
  | .fleet cause => cause.causes
  | .energy cause => cause.causes

/-- The causes behind a simulation error. -/
def SimulationError.causes : SimulationError Float → List String
  | .noStepLength => []
  | .emptyRun _ _ => []
  | .dispatch cause => cause.message :: cause.causes
  | .execution cause => cause.message :: cause.causes
  | .demand cause => cause.message :: cause.causes
  | .fleet cause => cause.message :: cause.causes
  | .energy cause => cause.message :: cause.causes
  | .network cause => [cause.message]

namespace Taxi

/-- Why the taxi service cannot be run. -/
inductive Failure where
  /-- The file with the settings cannot be read, for the given reason. -/
  | unreadable (path reason : String)
  /-- The file does not hold settings. -/
  | malformed (path : String)
  | fleet (cause : FleetError Float)
  | energy (cause : EnergyError Float)
  /-- There would be more requests than identifiers. -/
  | tooManyRequests
  | simulation (cause : SimulationError Float)
  deriving Repr

namespace Failure

/-- The wording of a failure. -/
def message : Failure → String
  | unreadable path _ => "reading " ++ path
  | malformed path => "parsing " ++ path
  | fleet cause => cause.message
  | energy cause => cause.message
  | tooManyRequests => "more requests than identifiers"
  | simulation cause => cause.message

/-- The causes behind a failure. -/
def causes : Failure → List String
  | unreadable _ reason => [reason]
  | malformed _ => []
  | fleet cause => cause.causes
  | energy cause => cause.causes
  | tooManyRequests => []
  | simulation cause => cause.causes

/-- The lines that tell a failure. Several causes are numbered. -/
def lines (failure : Failure) : List String :=
  let told :=
    match failure.causes with
    | [] => []
    | [cause] => ["", "Caused by:", "    " ++ cause]
    | causes =>
      "" :: "Caused by:" :: causes.zipIdx.map fun (cause, i) =>
        Decimal.padLeft 5 ' ' (Decimal.ofNat i) ++ ": " ++ cause
  ("Error: " ++ failure.message) :: told

end Failure

end Taxi

end DemandTransport
