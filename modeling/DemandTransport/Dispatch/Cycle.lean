import DemandTransport.Demand.Registry
import DemandTransport.Dispatch.Candidates
import DemandTransport.Dispatch.Insertion

/-!
# Dispatch cycles

A cycle goes through the pending requests in the order of their submission. Stale ones are cancelled
first, if the settings say so. For each other request all candidates are evaluated against their
present schedules, and the cheapest plan is carried out, the one of the lowest vehicle among equally
cheap ones. Later requests see the schedules that earlier ones have left; nothing is revised.
-/

namespace DemandTransport

variable {R : Type} [Scalar R]

/-- What a dispatch cycle changes. -/
structure Operation (R : Type) where
  /-- The vehicles. -/
  fleet : Fleet R
  /-- The requests. -/
  requests : Registry

namespace Operation

/-- An action on the vehicle with a number. -/
def onVehicle {α : Type} (id : VehicleId) (action : Action (DispatchError R) (Vehicle R) α) :
    Action (DispatchError R) (Fleet R) α := fun fleet =>
  match fleet.get id with
  | .error cause => .error (.fleet cause) fleet
  | .ok vehicle =>
    match action vehicle with
    | .ok a vehicle => .ok a (fleet.set id vehicle)
    | .error e vehicle => .error e (fleet.set id vehicle)

/-- An action on the fleet. -/
def onFleet {ε α : Type} (action : Action ε (Fleet R) α) : Action ε (Operation R) α :=
  Action.within Operation.fleet (fun fleet op => { op with fleet := fleet }) action

/-- An action on the requests. -/
def onRequests (action : Action DemandError Registry Unit) :
    Action (DispatchError R) (Operation R) Unit :=
  (Action.within Operation.requests (fun requests op => { op with requests := requests })
    action).mapError .demand

/-- A request that is registered. -/
def request (id : RequestId) : Action (DispatchError R) (Operation R) Request :=
  (Action.ask fun op => op.requests.request id).mapError .demand

end Operation

/-- The outcome of one request in a cycle. -/
inductive RequestOutcome (R : Type) where
  | planned (assignment : Assignment R)
  | unplanned (request : InfeasibleRequest R)
  deriving BEq, DecidableEq, Repr

namespace RequestOutcome

/-- The assignment, if the request was planned. -/
def assignment? : RequestOutcome R → Option (Assignment R)
  | planned a => some a
  | unplanned _ => none

/-- The reasons, if the request stays unplanned. -/
def infeasible? : RequestOutcome R → Option (InfeasibleRequest R)
  | planned _ => none
  | unplanned r => some r

end RequestOutcome

/-- Settings and policy of a dispatcher. -/
structure Dispatcher (R : Type) where
  /-- The settings. -/
  config : DispatchConfig
  /-- Which vehicles are asked. -/
  policy : CandidatePolicy R

namespace Dispatcher

/-- A dispatcher, provided that its settings are sound. -/
def make (config : DispatchConfig) (policy : CandidatePolicy R) :
    Except (DispatchError R) (Dispatcher R) := do
  config.validate
  return ⟨config, policy⟩

/-! ## Cancelling stale requests -/

/-- Why a request is stale at a time, if it is. -/
def staleReason? (config : DispatchConfig) (now : Time) (request : Request) :
    Option CancelReason :=
  let expired := config.expireAfterSecs.any fun secs => secs < now.since request.submitted
  let closed := config.cancelAfterWindow && request.latestPickup?.any fun latest => latest < now
  if expired then some .expired else if closed then some .windowClosed else none

/-- Cancel those of some requests that are stale. -/
def cancelStale (config : DispatchConfig) (now : Time) :
    List RequestId → Action (DispatchError R) (Operation R) (List (RequestId × CancelReason))
  | [] => pure []
  | id :: rest => do
    let request ← Operation.request id
    match staleReason? config now request with
    | none => cancelStale config now rest
    | some reason =>
      Operation.onRequests (Registry.InPlace.markCancelled id reason now)
      let others ← cancelStale config now rest
      return (id, reason) :: others

/-! ## Finding a vehicle -/

/-- The vehicles of the fleet that a policy names for a request, in ascending order. -/
def candidates (policy : CandidatePolicy R) (request : Request) (fleet : Fleet R) :
    List (Vehicle R) :=
  (ascending (policy request fleet)).filterMap fun id => (fleet.get id).toOption

/-- The cheapest of some plans; the first of several equally cheap ones. -/
def cheapest : List (Insertion R) → Option (Insertion R) :=
  List.foldl (fun best plan =>
    match best with
    | none => some plan
    | some b => if Scalar.totalLt plan.cost b.cost then some plan else best) none

/-- What each of some vehicles answers to a request: a plan, or why it cannot serve it. -/
def answers (ctx : DispatchContext R) (request : Request) (vehicles : List (Vehicle R)) :
    List (VehicleId × Except (RejectionReason R) (Insertion R)) :=
  vehicles.map fun v => (v.id, v.evaluate ctx request)

/-- The plans among some answers. -/
def plans (answers : List (VehicleId × Except (RejectionReason R) (Insertion R))) :
    List (Insertion R) :=
  answers.filterMap fun answer => answer.2.toOption

/-- The rejections among some answers. -/
def rejections (answers : List (VehicleId × Except (RejectionReason R) (Insertion R))) :
    List (Rejection R) :=
  answers.filterMap fun (vehicle, answer) =>
    match answer with
    | .ok _ => none
    | .error reason => some ⟨vehicle, reason⟩

/-- The cheapest plan for a request, or every candidate's reason. -/
def bestInsertion (policy : CandidatePolicy R) (ctx : DispatchContext R) (fleet : Fleet R)
    (request : Request) : Except (List (Rejection R)) (Insertion R) :=
  let answers := answers ctx request (candidates policy request fleet)
  match cheapest (plans answers) with
  | some best => .ok best
  | none => .error (rejections answers)

/-! ## A cycle -/

/-- Plan a request, if a vehicle can serve it. -/
def serve (policy : CandidatePolicy R) (ctx : DispatchContext R) (id : RequestId) :
    Action (DispatchError R) (Operation R) (RequestOutcome R) := do
  let request ← Operation.request id
  let op ← get
  match bestInsertion policy ctx op.fleet request with
  | .error reasons => return .unplanned ⟨id, reasons⟩
  | .ok best =>
    Operation.onFleet (Operation.onVehicle best.vehicle (Vehicle.commit best))
    Operation.onRequests
      (Registry.InPlace.markPlanned id best.vehicle best.pickupAt best.dropoffAt)
    return .planned ⟨id, best.vehicle, best.pickupAt, best.dropoffAt, best.cost⟩

/-- Plan some requests, one after the other. -/
def serveAll (policy : CandidatePolicy R) (ctx : DispatchContext R) :
    List RequestId → Action (DispatchError R) (Operation R) (List (RequestOutcome R))
  | [] => pure []
  | id :: rest => do
    let outcome ← serve policy ctx id
    let others ← serveAll policy ctx rest
    return outcome :: others

/-- Cancel the stale ones among the pending requests, if the settings ask for it. -/
def cancelPending (config : DispatchConfig) (now : Time) :
    Action (DispatchError R) (Operation R) (List (RequestId × CancelReason)) := do
  if config.expireAfterSecs.isNone ∧ !config.cancelAfterWindow then return []
  else
    let op ← get
    cancelStale config now op.requests.pending

/-- Run a dispatch cycle. A failure means that a schedule could not be changed as evaluated; what
had been done before stays done. -/
def runCycle (dispatcher : Dispatcher R) (network : Network R) (router : Router R) (now : Time) :
    Action (DispatchError R) (Operation R) (DispatchReport R) := do
  let cancelled ← cancelPending dispatcher.config now
  let op ← get
  let outcomes ← serveAll dispatcher.policy ⟨network, router, dispatcher.config, now⟩
    op.requests.pending
  let report : DispatchReport R :=
    { now := now
      planned := outcomes.filterMap RequestOutcome.assignment?
      unplanned := outcomes.filterMap RequestOutcome.infeasible?
      cancelled := cancelled }
  return report

end Dispatcher

end DemandTransport
