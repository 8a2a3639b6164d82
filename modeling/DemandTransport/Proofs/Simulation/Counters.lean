import DemandTransport.Proofs.Dispatch.Report
import DemandTransport.Proofs.Simulation.Agreement
import DemandTransport.Proofs.Simulation.Charging

/-!
# The counts tell the truth

A run counts requests and charging sessions as it goes along: when it registers and withdraws
requests, from the reports of dispatch cycles, and from the events of executions. It never looks at
the requests and the schedules to do so. Nevertheless the counts are at all times what would be
found by going through the registry and the schedules, since each of these places counts exactly
what it changes.
-/

namespace DemandTransport

variable {R : Type} [Scalar R]

/-! ## What is counted -/

omit [Scalar R] in
/-- Which milestone an event takes its request past. -/
def TaskEvent.gained (event : TaskEvent R) : Milestone → Nat :=
  match event.phase, event.activity with
  | .ended, .pickup _ => Milestone.pickedUp.times 1
  | .ended, .dropoff _ => Milestone.performed.times 1
  | _, _ => fun _ => 0

omit [Scalar R] in
/-- The registry notes of an event what it takes its request past. -/
theorem registryChange_gains {event : TaskEvent R} {registry registry' : Registry}
    (h : registry.Sound) (hwaits : registry.Unassigned)
    (hok : Simulation.registryChange event registry = .ok registry') :
    registry.Gains registry' event.gained := by
  unfold Simulation.registryChange at hok
  split at hok
  next request hphase hactivity =>
    rw [TaskEvent.gained, hphase, hactivity]
    exact @Registry.Sound.change_gains _ _ h hwaits (.markPickedUp request event.time) hok
  next request hphase hactivity =>
    rw [TaskEvent.gained, hphase, hactivity]
    exact @Registry.Sound.change_gains _ _ h hwaits (.markPerformed request event.time) hok
  next hpickup hdropoff =>
    cases hok
    unfold TaskEvent.gained
    split
    next request hphase hactivity => exact (hpickup request hphase hactivity).elim
    next request hphase hactivity => exact (hdropoff request hphase hactivity).elim
    next => exact .refl h hwaits

namespace RunStats

/-- How many requests have passed a milestone, as far as it has been counted. -/
def reached (stats : RunStats R) : Milestone → Nat
  | .submitted => stats.submitted
  | .planned => stats.planned
  | .pickedUp => stats.pickedUp
  | .performed => stats.performed
  | .cancelled => stats.cancelled

/-- The energy of an event is counted separately. -/
theorem recordEvent_eq (stats : RunStats R) (event : TaskEvent R) :
    ∃ used charged, stats.recordEvent event =
      { stats.recordActivity event.phase event.activity with
        energyUsed := used, energyCharged := charged } := by
  unfold recordEvent
  dsimp only
  split
  · unfold recordEnergy
    split <;> exact ⟨_, _, rfl⟩
  · exact ⟨_, _, rfl⟩

/-- An event is counted for the milestone that it takes its request past. -/
theorem recordEvent_reached (stats : RunStats R) (event : TaskEvent R) (m : Milestone) :
    (stats.recordEvent event).reached m = stats.reached m + event.gained m := by
  obtain ⟨used, charged, heq⟩ := stats.recordEvent_eq event
  rw [heq]
  obtain ⟨_, _, phase, activity, _, _⟩ := event
  cases phase <;> cases activity with
  | charge _ plugged => cases plugged <;> cases m <;> rfl
  | stay | drive | pickup _ | dropoff _ => cases m <;> rfl

/-- No event plans a session, and the ones that are counted as completed have ended with a plug. -/
theorem recordEvent_charging (stats : RunStats R) (event : TaskEvent R) :
    (stats.recordEvent event).chargingPlanned = stats.chargingPlanned ∧
      (stats.recordEvent event).chargingCompleted =
        stats.chargingCompleted + if event.completes then 1 else 0 := by
  obtain ⟨used, charged, heq⟩ := stats.recordEvent_eq event
  rw [heq]
  obtain ⟨_, _, phase, activity, _, _⟩ := event
  cases phase <;> cases activity with
  | charge _ plugged => cases plugged <;> exact ⟨rfl, rfl⟩
  | stay | drive | pickup _ | dropoff _ => exact ⟨rfl, rfl⟩

theorem foldl_recordEvent_charging (events : List (TaskEvent R)) (stats : RunStats R) :
    (events.foldl recordEvent stats).chargingPlanned = stats.chargingPlanned ∧
      (events.foldl recordEvent stats).chargingCompleted =
        stats.chargingCompleted + events.countP TaskEvent.completes := by
  induction events generalizing stats with
  | nil => exact ⟨rfl, rfl⟩
  | cons event rest ih =>
    obtain ⟨hplanned, hcompleted⟩ := ih (stats.recordEvent event)
    obtain ⟨hone, hanother⟩ := stats.recordEvent_charging event
    rw [List.foldl_cons, List.countP_cons]
    exact ⟨hplanned.trans hone, by omega⟩

/-- The counts of requests agree with the registry. -/
structure CountsRequests (stats : RunStats R) (requests : Registry) : Prop where
  sound : requests.Sound
  unassigned : requests.Unassigned
  reached : ∀ m, stats.reached m = requests.tally m

omit [Scalar R] in
/-- What the requests gain is counted. -/
theorem CountsRequests.gain {stats stats' : RunStats R} {requests requests' : Registry}
    {gained : Milestone → Nat} (h : stats.CountsRequests requests)
    (hgains : requests.Gains requests' gained)
    (hreached : ∀ m, stats'.reached m = stats.reached m + gained m) :
    stats'.CountsRequests requests' :=
  ⟨hgains.sound, hgains.unassigned, fun m => by rw [hreached, h.reached, hgains.tally]⟩

/-- All counts agree with the registry and the schedules. -/
structure Tallies (stats : RunStats R) (vehicles : List (Vehicle R)) (requests : Registry) :
    Prop extends stats.CountsRequests requests where
  planned : stats.chargingPlanned = (sessions vehicles).length
  completed : stats.chargingCompleted = (sessions vehicles).count .performed

namespace Tallies

variable {stats stats' : RunStats R} {vehicles vehicles' : List (Vehicle R)}
  {requests requests' : Registry} {gained : Milestone → Nat}

omit [Scalar R] in
/-- What the requests gain is counted, while the charging tasks stay as they are. -/
theorem gain (h : stats.Tallies vehicles requests) (hgains : requests.Gains requests' gained)
    (hreached : ∀ m, stats'.reached m = stats.reached m + gained m)
    (hplanned : stats'.chargingPlanned = stats.chargingPlanned)
    (hcompleted : stats'.chargingCompleted = stats.chargingCompleted)
    (hsessions : sessions vehicles' = sessions vehicles) :
    stats'.Tallies vehicles' requests' where
  toCountsRequests := h.toCountsRequests.gain hgains hreached
  planned := by rw [hplanned, h.planned, hsessions]
  completed := by rw [hcompleted, h.completed, hsessions]

omit [Scalar R] in
/-- What a dispatch cycle does is counted as its report says. -/
theorem recordDispatch {report : DispatchReport R} (h : stats.Tallies vehicles requests)
    (hgains : requests.Gains requests' report.gained)
    (hsessions : (sessions vehicles').Perm
      (List.replicate report.charging.length .planned ++ sessions vehicles)) :
    (stats.recordDispatch report).Tallies vehicles' requests' where
  toCountsRequests := h.toCountsRequests.gain hgains fun m => by cases m <;> rfl
  planned := by
    rw [hsessions.length_eq, List.length_append, List.length_replicate, ← h.planned, Nat.add_comm]
    rfl
  completed := by
    rw [hsessions.count_eq, List.count_append, ← h.completed]
    simp [List.count_replicate, RunStats.recordDispatch]

end Tallies

end RunStats

/-! ## In the course of a run -/

/-- The counts of a simulation agree with its registry and its schedules. -/
def Simulation.Tallied (sim : Simulation R) : Prop :=
  sim.stats.Tallies sim.fleet.vehicles sim.requests

namespace Simulation.Tallied

variable {sim : Simulation R}

omit [Scalar R] in
/-- A request is counted when it is registered. -/
theorem release (h : sim.Tallied) (request : Request) :
    (Simulation.release request).Ends sim (fun _ s => s.Tallied) fun _ s => s.Tallied := by
  refine release_ends (fun requests hsubmit => ?_) fun _ _ => h
  refine h.gain (h.sound.submit_gains h.unassigned hsubmit) (fun m => ?_) rfl rfl rfl
  cases m <;> rfl

omit [Scalar R] in
theorem submit (h : sim.Tallied) (request : Request) :
    (Simulation.submit request).Ends sim (fun _ s => s.Tallied) fun _ s => s.Tallied :=
  submit_ends (fun _ => h.release request) h h

omit [Scalar R] in
theorem releaseDue (h : sim.Tallied) {now : Time} {arrivals : List Request} :
    (Simulation.releaseDue now arrivals).Ends sim (fun _ s => s.Tallied) fun _ s => s.Tallied := by
  refine releaseDue_ends (Q := fun _ s => s.Tallied) (fun request rest s hs _ => ?_)
    (fun _ _ _ hs => hs) h
  have hrest : Tallied { s with arrivals := rest } := hs
  exact hrest.release request

/-- Boarding, alighting and the ends of sessions are counted when events tell of them. -/
theorem execute (h : sim.Tallied) (hrange : sim.clock.InRange) (horder : sim.InOrder [])
    (hsupply : sim.InSupply sim.now) :
    (Simulation.execute sim.now).Ends sim
      (fun events s => (Simulation.apply events).Ends s (fun _ t => t.Tallied) fun _ _ => False)
      fun _ _ => False := by
  have hsteady := @Charged.steady R _ sim.clock.grid sim.now (sessions sim.fleet.vehicles)
    fun t ht => hsupply.snap_le hrange ht
  have hcharges := execute_ends hsteady horder.movements
    ⟨hsupply.accommodated, show Charged _ [] _ from ⟨rfl, rfl⟩⟩
  refine (horder.execute.and hcharges).mono ?_ fun _ _ hfail => hfail.1
  rintro events s ⟨happly, fleet, movements, chargers, past, rfl, -, -, hnoted, -, hcharged⟩
  obtain rfl : past = events := TaskEvent.past_of_noted hnoted
  have hkeeps := @apply_keeps R _
    { sim with fleet := fleet, movements := movements, chargers := chargers } (fun _ => True)
    (fun s => s.stats.CountsRequests s.requests)
    (fun s event _ _ hok hs => hs.gain (registryChange_gains hs.sound hs.unassigned hok)
      (s.stats.recordEvent_reached event))
    past (fun _ _ => trivial) h.toCountsRequests
  refine ((happly.and hkeeps).and (apply_fleet.and apply_stats)).mono ?_ fun _ _ hfail => hfail.1.1
  rintro - t ⟨⟨-, hcounts⟩, hfleet, hstats⟩
  obtain ⟨hplanned, hcompleted⟩ := RunStats.foldl_recordEvent_charging past sim.stats
  refine ⟨hcounts, ?_, ?_⟩
  · rw [hstats, hplanned, h.planned, hfleet, hcharged.length]
  · rw [hstats, hcompleted, h.completed, hfleet, hcharged.completed]

/-- Cancellations, plans and sessions are counted from the report of a dispatch cycle. -/
theorem dispatch (h : sim.Tallied) (horder : sim.InOrder []) :
    dispatchCycle.Ends sim (fun _ s => s.Tallied) fun _ _ => False := by
  have hready := horder.equipped.ready
  have hagrees : sim.operation.Agrees [] sim.chargers := horder.agreement
  have hroster := horder.agreement.roster
  let Reported (report : DispatchReport R) (fleet : Fleet R) (requests : Registry) : Prop :=
    sim.requests.Gains requests report.gained ∧
      (sessions fleet.vehicles).Perm
        (List.replicate report.charging.length .planned ++ sessions sim.fleet.vehicles)
  have hcycle : (sim.dispatcher.runCycle sim.network sim.router sim.now).Ends sim.operation
      (fun report op => (sim.planner.plan sim.network sim.router sim.now sim.chargers).Ends op.fleet
        (fun charging fleet => Reported { report with charging := charging } fleet op.requests)
        fun _ _ => True)
      fun _ _ => True := by
    have hgains := @Dispatcher.runCycle_gains R _ sim.now sim.operation sim.dispatcher sim.network
      sim.router h.sound h.unassigned hroster.numbered
      fun v hv => (hroster.valid v hv).toValid
    refine (hgains.and (Dispatcher.runCycle_ends sim.planner hready hagrees)).mono ?_
      fun _ _ _ => trivial
    rintro report op ⟨⟨hreport, hsame⟩, hop⟩
    have hlater : op.Agrees [] sim.chargers := Operation.agrees_of_moves hop hready hagrees
    refine (ChargingPlanner.plan_sessions hready.router
      fun v hv => (hlater.roster.valid v hv).toValid).mono (fun charging fleet hfleet => ?_)
      fun _ _ h => h
    rw [hsame] at hfleet
    have hgained : ({ report with charging := charging } : DispatchReport R).gained =
        report.gained := by
      funext m
      cases m <;> rfl
    exact ⟨hgained ▸ hreport, hfleet⟩
  have hends := @dispatchCycle_ends R _ sim Reported (fun _ _ => True) hcycle
  refine (hends.and horder.dispatch).mono ?_ fun _ _ hfail => hfail.2
  rintro report s ⟨⟨fleet, requests, ⟨hgains, hsessions⟩, rfl⟩, -⟩
  exact h.recordDispatch hgains hsessions

/-- A request that is withdrawn is counted as cancelled. -/
theorem withdraw (h : sim.Tallied) (horder : sim.InOrder []) (id : RequestId) (why : String) :
    (Simulation.withdraw id why).Ends sim (fun _ s => s.Tallied) fun _ s => s.Tallied := by
  refine (horder.withdraw_ends id why).mono ?_ fun _ s hs => by rw [hs.2]; exact h
  rintro - s ⟨-, entry, fleet, requests, hfind, hbecomes, htakes, -, rfl⟩
  have hlive : entry.status = .unplanned ∨ entry.status = .planned := by
    cases htakes with
    | unplanned hstatus => exact .inl hstatus
    | planned hstatus => exact .inr hstatus
  have hopen : entry.reached .cancelled = false := by
    rcases hlive with hstatus | hstatus <;>
      simp [RequestEntry.reached, hstatus, RequestStatus.isCancelled]
  have hgains := hbecomes.gains h.sound h.unassigned hfind (.cancel hlive _ _) hopen rfl
  refine h.gain hgains (fun m => by cases m <;> rfl) rfl rfl ?_
  cases htakes with
  | unplanned _ => rfl
  | planned _ hsplit _ hrun hspares =>
    rw [hsplit]
    exact sessions_replace (Vehicle.retract_sessions hrun hspares)

/-- Every step keeps the counts true, even if it fails. -/
theorem phased :
    Phased (fun sim : Simulation R => (sim.InOrder [] ∧ sim.InSupply sim.now) ∧ sim.Tallied)
      (fun sim => (sim.InOrder [] ∧ sim.InSupply sim.clock.next) ∧ sim.Tallied)
      (fun sim => (sim.InOrder [] ∧ sim.InSupply sim.now) ∧ sim.Tallied)
      (fun event => True ∧ event.unplugged = false) Clock.InRange := by
  refine (InOrder.phased.meanwhile.and InSupply.phased).with_kept
    (fun _ _ _ h => h.releaseDue) ?_ ?_ ?_
  · intro sim hrange hsim h
    exact (h.execute hrange hsim.1 hsim.2).of_no_failure.mono (fun _ _ hs => hs.of_no_failure)
      fun _ _ hfail => hfail
  · intro sim _ hsim h
    exact (h.dispatch hsim.1).of_no_failure
  · intro sim _ _ h
    simp only [Simulation.tick, count, Action.ends_bind, Action.ends_modify]
    exact h.gain (.refl h.sound h.unassigned) (fun m => by cases m <;> rfl) rfl rfl rfl

/-- So does every call. -/
theorem lasting :
    Lasting (fun sim : Simulation R => (sim.InOrder [] ∧ sim.InSupply sim.now) ∧ sim.Tallied)
      (fun sim => (sim.InOrder [] ∧ sim.InSupply sim.clock.next) ∧ sim.Tallied)
      (fun event => True ∧ event.unplugged = false) Clock.InRange :=
  (InOrder.lasting.meanwhile.and InSupply.lasting).with_kept phased
    (fun request _ _ _ h => h.submit request) (fun id why _ _ hsim h => h.withdraw hsim.1 id why)
    fun _ _ hsim h => (h.dispatch hsim.1).of_no_failure

/-- In a new simulation there is nothing to count. -/
theorem of_build {scenario : Scenario R} (hnew : scenario.IsNew) (h : scenario.build = .ok sim) :
    sim.Tallied := by
  have hbegins := scenario.build_ok hnew h
  have hnone : sessions sim.fleet.vehicles = [] := by
    refine List.flatMap_eq_nil_iff.mpr fun v hv => ?_
    obtain ⟨stay, htasks, hstay, -⟩ := (hnew.fleet.vehicles v (hbegins.fleet ▸ hv)).tasks
    rw [Schedule.eq_of_tasks htasks]
    exact Schedule.sessions_idle (by simpa using hstay)
  refine ⟨⟨?_, ?_, ?_⟩, ?_, ?_⟩
  · rw [hbegins.requests]
    exact Registry.sound_empty
  · rw [hbegins.requests]
    intro id entry hfind
    cases hfind
  · rw [hbegins.stats, hbegins.requests]
    intro m
    cases m <;> rfl
  · rw [hbegins.stats, hnone]
    rfl
  · rw [hbegins.stats, hnone]
    rfl

end Simulation.Tallied

end DemandTransport
