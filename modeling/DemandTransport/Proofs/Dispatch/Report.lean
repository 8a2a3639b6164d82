import DemandTransport.Proofs.Demand.Tally
import DemandTransport.Proofs.Dispatch.Sessions

/-!
# What a report counts

The report of a dispatch cycle names each request that the cycle has cancelled or planned once, and
nothing else happens to requests in a cycle. So the lengths of its lists say by how much the numbers
of cancelled and of planned requests have grown.
-/

namespace DemandTransport

variable {R : Type} [Scalar R]

/-- How many requests a report takes past a milestone. -/
def DispatchReport.gained (report : DispatchReport R) : Milestone → Nat
  | .planned => report.planned.length
  | .cancelled => report.cancelled.length
  | .submitted | .pickedUp | .performed => 0

namespace Dispatcher

variable {config : DispatchConfig} {ctx : DispatchContext R} {now : Time}
  {requests requests' : Registry} {op op' : Operation R} {ids : List RequestId}
  {cancelled : List (RequestId × CancelReason)} {outcomes : List (RequestOutcome R)}

omit [Scalar R] in
/-- Each stale request is cancelled once. -/
theorem Cancels.gains (h : Cancels config now requests ids cancelled requests')
    (hsound : requests.Sound) (hwaits : requests.Unassigned) :
    requests.Gains requests' (Milestone.cancelled.times cancelled.length) := by
  induction h with
  | done => exact ⟨hsound, hwaits, by simp [Milestone.times]⟩
  | keep _ _ _ ih => exact ih hsound hwaits
  | @cancel requests requests₁ _ id _ _ _ reason _ _ noted _ ih =>
    have hone : requests.Gains requests₁ (Milestone.cancelled.times 1) :=
      @Registry.Sound.change_gains _ _ hsound hwaits (.markCancelled id reason now) noted
    refine hone.trans (ih hone.sound hone.unassigned) fun m => ?_
    rw [Milestone.times_add, List.length_cons, Nat.add_comm]

/-- Each request that can be served is planned once. -/
theorem Serves.gains (h : Serves ctx op ids outcomes op') (hsound : op.requests.Sound)
    (hwaits : op.requests.Unassigned) :
    op.requests.Gains op'.requests
      (Milestone.planned.times (outcomes.filterMap RequestOutcome.assignment?).length) := by
  induction h with
  | done => exact ⟨hsound, hwaits, by simp [Milestone.times]⟩
  | skip _ ih => exact ih hsound hwaits
  | @plan op _ id _ _ _ _ _ v _ plan requests _ _ _ _ _ _ _ _ _ noted _ ih =>
    have hone : op.requests.Gains requests (Milestone.planned.times 1) :=
      @Registry.Sound.change_gains _ _ hsound hwaits
        (.markPlanned id v.id plan.pickupAt plan.dropoffAt) noted
    refine hone.trans (ih hone.sound hone.unassigned) fun m => ?_
    rw [Milestone.times_add, Nat.add_comm]
    rfl

/-- A cycle takes as many requests past the milestones as its report says, and it plans no charging
task. -/
theorem runCycle_gains {dispatcher : Dispatcher R} {network : Network R} {router : Router R}
    (hsound : op.requests.Sound) (hwaits : op.requests.Unassigned)
    (hfleet : Numbered op.fleet.vehicles) (hvalid : ∀ v ∈ op.fleet.vehicles, v.schedule.Valid) :
    (dispatcher.runCycle network router now).Ends op
      (fun report op' => op.requests.Gains op'.requests report.gained ∧
        sessions op'.fleet.vehicles = sessions op.fleet.vehicles) fun _ _ => True := by
  simp only [runCycle, Action.ends_bind, Action.ends_get, Action.ends_pure]
  refine (cancelPending_cancels hsound).mono ?_ fun _ _ h => h
  rintro cancelled mid ⟨hcancels, hmid⟩
  have hcancelled := hcancels.gains hsound hwaits
  have hserves := @serveAll_serves R _ dispatcher.policy ⟨network, router, dispatcher.config, now⟩
    mid.requests.pending mid (by rwa [hmid]) (by rwa [hmid])
  refine hserves.mono (fun outcomes op' hserves => ⟨?_, ?_⟩) fun _ _ h => h
  · refine hcancelled.trans (hserves.gains hcancelled.sound hcancelled.unassigned) fun m => ?_
    cases m <;> simp [Milestone.times, DispatchReport.gained]
  · rw [hserves.sessions_eq, hmid]

end Dispatcher

end DemandTransport
