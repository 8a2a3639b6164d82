import DemandTransport.Proofs.Simulation.Counters
import DemandTransport.Proofs.Simulation.Precedence

/-!
# No request is lost

The requests that a simulation holds are those to come and those that are registered. A request that
is accepted joins one of the two groups and only moves from the first to the second, when it is due.
It leaves the first group for good then, so it is lost if it cannot be registered, which makes the
step fail. In no other way is a request lost or doubled.
-/

namespace DemandTransport

variable {R ω : Type} [Scalar R]

/-! ## The requests of a registry -/

namespace Registry

variable {registry registry' : Registry} {request : Request}

/-- All registered requests, as they were submitted. -/
def registered (registry : Registry) : List Request := registry.entries.map RequestEntry.request

theorem Sound.mem_registered (h : registry.Sound) :
    request ∈ registry.registered ↔ registry.Has request := by
  rw [registered, List.mem_map, Has, request?, Option.map_eq_some_iff]
  constructor
  · rintro ⟨entry, hmem, rfl⟩
    exact ⟨entry, h.mem_entries.mp hmem, rfl⟩
  · rintro ⟨entry, hfind, rfl⟩
    exact ⟨entry, h.mem_entries.mpr hfind, rfl⟩

theorem Sound.registered_nodup (h : registry.Sound) : registry.registered.Nodup := by
  have hids : (registry.registered.map Request.id).Nodup := by
    rw [registered, List.map_map]
    exact h.distinct
  exact List.Nodup.of_map _ hids

/-- The requests stay the same where none is accepted. -/
theorem Follows.registered_perm (hfollows : registry.Follows registry') (h : registry.Sound) :
    registry'.registered.Perm registry.registered := by
  rw [List.perm_ext_iff_of_nodup hfollows.sound.registered_nodup h.registered_nodup]
  intro request
  rw [hfollows.sound.mem_registered, h.mem_registered, hfollows.has_iff]

/-- An accepted request joins the others. -/
theorem Accepts.registered_perm (haccepts : registry.Accepts registry' request)
    (h : registry.Sound) : registry'.registered.Perm (request :: registry.registered) := by
  have hnew : request ∉ registry.registered := by
    rw [h.mem_registered, Has, haccepts.new]
    simp
  have hnodup := List.nodup_cons.mpr ⟨hnew, h.registered_nodup⟩
  rw [List.perm_ext_iff_of_nodup haccepts.sound.registered_nodup hnodup]
  intro other
  rw [haccepts.sound.mem_registered, haccepts.has_iff, List.mem_cons, h.mem_registered]

end Registry

/-! ## The requests of a simulation -/

namespace Simulation

variable {sim sim' : Simulation R} {requests lost : List Request}

/-- All requests that a simulation holds. -/
def held (sim : Simulation R) : List Request := sim.arrivals ++ sim.requests.registered

/-- A simulation that holds the given requests except those that have been lost. -/
structure Holds (requests lost : List Request) (sim : Simulation R) : Prop where
  sound : sim.requests.Sound
  perm : (sim.held ++ lost).Perm requests

/-- Of requests to come, the first one that is due and cannot be registered. -/
def refusal? (now : Time) : List Request → Simulation R → Option Request
  | [], _ => none
  | request :: rest, sim =>
    if request.submitted ≤ now then
      match release request { sim with arrivals := rest } with
      | .ok _ sim' => refusal? now rest sim'
      | .error _ _ => some request
    else none

namespace Holds

omit [Scalar R] in
theorem of_sound (h : sim.requests.Sound) : sim.Holds sim.held [] :=
  ⟨h, by rw [List.append_nil]⟩

omit [Scalar R] in
theorem congr {requests' : List Request} (h : sim.Holds requests lost)
    (hperm : requests.Perm requests') : sim.Holds requests' lost :=
  ⟨h.sound, h.perm.trans hperm⟩

omit [Scalar R] in
/-- A request that was accepted once, and was not lost, is in one of the two places. -/
theorem mem_arrivals {request : Request} (h : sim.Holds requests lost)
    (honce : requests.count request = 1) (hnot : request ∉ lost) :
    request ∈ sim.arrivals ↔ ¬sim.requests.Has request := by
  have hcount := h.perm.count_eq request
  rw [honce, held, List.count_append, List.count_append,
    List.count_eq_zero_of_not_mem hnot] at hcount
  rw [← h.sound.mem_registered, ← List.count_pos_iff, ← List.count_pos_iff]
  omega

omit [Scalar R] in
theorem follow (h : sim.Holds requests lost) (hfollows : sim.Follows sim') :
    sim'.Holds requests lost := by
  refine ⟨hfollows.requests.sound, List.Perm.trans ?_ h.perm⟩
  rw [held, hfollows.arrivals, held]
  exact ((hfollows.requests.registered_perm h.sound).append_left _).append_right _

omit [Scalar R] in
/-- A request is registered, or it is refused. -/
theorem release {request : Request} (h : sim.Holds requests []) :
    (Simulation.release request).Ends sim
      (fun _ s => s.Holds (request :: requests) [] ∧ s.arrivals = sim.arrivals)
      fun _ s => s = sim := by
  refine release_ends (fun registry hsubmit => ?_) fun _ _ => rfl
  have haccepts := h.sound.accepts hsubmit
  refine ⟨⟨haccepts.sound, ?_⟩, rfl⟩
  have hmoved := (haccepts.registered_perm h.sound).append_left sim.arrivals
  have hheld := h.perm
  rw [List.append_nil] at hheld ⊢
  exact hmoved.trans (List.perm_middle.trans (hheld.cons request))

omit [Scalar R] in
/-- A request that is submitted is held from then on, unless this fails. -/
theorem submit {request : Request} (h : sim.Holds requests []) :
    (Simulation.submit request).Ends sim (fun _ s => s.Holds (request :: requests) [])
      fun _ s => s.Holds requests [] := by
  refine submit_ends (fun _ => ?_) ?_ h
  · exact h.release.mono (fun _ _ hs => hs.1) fun _ s hs => by rw [hs]; exact h
  · refine ⟨h.sound, ?_⟩
    have hqueued := (enqueue_perm request sim.arrivals).symm.append_right sim.requests.registered
    have hheld := h.perm
    rw [List.append_nil] at hheld ⊢
    exact hqueued.trans (hheld.cons request)

omit [Scalar R] in
/-- The first of the requests to come is registered, or it is lost. -/
theorem releaseNext {request : Request} {rest : List Request}
    (h : Holds requests [] { sim with arrivals := request :: rest }) :
    (Simulation.release request).Ends { sim with arrivals := rest }
      (fun _ s => Holds requests [] { s with arrivals := rest })
      fun _ s => s.Holds requests [request] := by
  have hrest : Holds (held { sim with arrivals := rest }) [] { sim with arrivals := rest } :=
    .of_sound h.sound
  have hall : (request :: held { sim with arrivals := rest }).Perm requests := by
    have hperm := h.perm
    rwa [List.append_nil] at hperm
  refine hrest.release.mono ?_ ?_
  · rintro - s ⟨hs, harrivals⟩
    have hperm := (hs.congr hall).perm
    rw [held, harrivals] at hperm
    exact ⟨hs.sound, hperm⟩
  · rintro - s rfl
    exact ⟨h.sound, (List.perm_append_singleton request _).trans hall⟩

omit [Scalar R] in
/-- Of the requests that are due, all are registered, or the first one that cannot be is lost. -/
theorem releaseDue {now : Time} {arrivals : List Request}
    (h : Holds requests [] { sim with arrivals := arrivals }) :
    (Simulation.releaseDue now arrivals).Ends sim
      (fun _ s => refusal? now arrivals sim = none ∧ s.Holds requests [])
      fun _ s => s.Holds requests (refusal? now arrivals sim).toList := by
  refine releaseDue_ends
    (Q := fun left s => refusal? now left s = refusal? now arrivals sim ∧
      Holds requests [] { s with arrivals := left })
    (fun request rest s hs hdue => ?_) (fun left s hlater hs => ?_) ⟨rfl, h⟩
  · obtain ⟨hrefusal, hheld⟩ := hs
    have hnext := hheld.releaseNext
    rw [refusal?, if_pos hdue] at hrefusal
    unfold Action.Ends at hnext ⊢
    cases hrun : Simulation.release request { s with arrivals := rest } with
    | ok _ s' =>
      rw [hrun] at hnext hrefusal
      exact ⟨hrefusal, hnext⟩
    | error e s' =>
      rw [hrun] at hnext hrefusal
      rwa [← hrefusal]
  · refine ⟨?_, hs.2⟩
    rw [← hs.1]
    cases left with
    | nil => rfl
    | cons request rest => rw [refusal?, if_neg (by simpa using hlater)]

end Holds

end Simulation

/-! ## In the course of a run -/

namespace Observed

variable (observer : Observer R ω) {state : Observed R ω} {requests : List Request}

/-- In a number of steps, the request that is due and cannot be registered. There is one at most,
since the step fails. -/
def refusal? : Nat → Observed R ω → Option Request
  | 0, _ => none
  | steps + 1, state =>
    match step observer state with
    | .ok _ state' => refusal? steps state'
    | .error _ _ => Simulation.refusal? state.sim.now state.sim.arrivals state.sim

theorem step_holds (h : state.sim.Holds requests []) :
    (step observer).Ends state (fun _ s => s.sim.Holds requests [])
      fun _ s => s.sim.Holds requests
        (Simulation.refusal? state.sim.now state.sim.arrivals state.sim).toList := by
  let refused := Simulation.refusal? state.sim.now state.sim.arrivals state.sim
  have hquiet {sim : Simulation R} (hnone : refused = none) (hsim : sim.Holds requests []) :
      sim.Holds requests refused.toList := by rwa [hnone]
  have hphases : Narrated (fun _ sim => sim = state.sim)
      (fun _ sim => refused = none ∧ sim.Holds requests [])
      (fun _ sim => refused = none ∧ sim.Holds requests []) (fun _ sim => sim.Holds requests [])
      fun _ sim => sim.Holds requests refused.toList := {
    release := by
      rintro - sim - rfl
      exact h.releaseDue
    execute := by
      rintro - sim - ⟨hnone, hsim⟩
      refine (Simulation.execute_follows hsim.sound).mono (fun _ _ happly => ?_)
        fun _ _ hs => hquiet hnone (hsim.follow hs)
      exact happly.mono (fun _ _ hs => ⟨hnone, hsim.follow hs⟩)
        fun _ _ hs => hquiet hnone (hsim.follow hs)
    dispatch := by
      rintro - sim - ⟨hnone, hsim⟩
      exact (Simulation.dispatchCycle_follows hsim.sound).mono
        (fun _ _ hs => ⟨hnone, hsim.follow hs.2⟩) fun _ _ hs => hquiet hnone (hsim.follow hs)
    tick := by
      rintro - sim - ⟨-, hsim⟩
      simp only [Simulation.tick, Simulation.count, Action.ends_bind, Action.ends_modify]
      exact ⟨hsim.sound, hsim.perm⟩ }
  refine (step_shares (J := fun _ _ => True) hphases (fun _ _ _ _ => trivial) trivial
    ⟨[], rfl, trivial⟩).mono ?_ ?_
  · rintro - s ⟨-, hshares⟩
    obtain ⟨_, hs, -⟩ := hshares trivial
    exact hs
  · rintro - s ⟨-, _, hs, -⟩
    exact hs

theorem runSteps_holds (h : state.sim.Holds requests []) (steps : Nat) :
    (runSteps observer steps).Ends state
      (fun _ s => s.sim.Holds requests (refusal? observer steps state).toList)
      fun _ s => s.sim.Holds requests (refusal? observer steps state).toList := by
  induction steps generalizing state with
  | zero => exact h
  | succ steps ih =>
    have hstep := step_holds observer h
    rw [runSteps, Action.ends_bind]
    unfold Action.Ends at hstep ⊢
    rw [refusal?]
    cases hrun : step observer state with
    | ok _ s =>
      rw [hrun] at hstep
      exact ih hstep
    | error e s =>
      rw [hrun] at hstep
      exact hstep

end Observed

namespace Call

variable (observer : Observer R ω) {state : Observed R ω}

/-- The request that a call adds, if it is accepted. -/
def accepted? (state : Observed R ω) (call : Call) : Option Request :=
  if ((call.perform observer).outcome state).1.isOk then call.submission? else none

/-- The request that is due during a call but cannot be registered. -/
def refusal? (state : Observed R ω) : Call → Option Request
  | runSteps steps => state.refusal? observer steps
  | _ => none

/-- The requests that are found at some calls, each made on what the one before it left. -/
def collect (found? : Observed R ω → Call → Option Request) :
    List Call → Observed R ω → List Request
  | [], _ => []
  | call :: rest, state =>
    (found? state call).toList ++
      collect found? rest ((call.perform observer).outcome state).2

/-- A call adds a request, loses one, or does neither. -/
theorem perform_holds (h : state.sim.requests.Sound) (call : Call) :
    ((call.perform observer).outcome state).2.sim.Holds
      (state.sim.held ++ (call.accepted? observer state).toList)
      (call.refusal? observer state).toList := by
  have hheld := Simulation.Holds.of_sound h
  have hsame : call.submission? = none →
      state.sim.held ++ (call.accepted? observer state).toList = state.sim.held := fun hnone => by
    rw [accepted?, hnone, ite_self, Option.toList_none, List.append_nil]
  cases call with
  | submit request =>
    have hsubmit : (Call.perform observer (.submit request)).Ends state
        (fun _ s => s.sim.Holds (request :: state.sim.held) [])
        fun _ s => s.sim.Holds state.sim.held [] := by
      rw [Call.perform, Observed.onSim_ends]
      exact hheld.submit
    unfold Action.Ends at hsubmit
    rw [accepted?, Action.outcome]
    cases hrun : Call.perform observer (.submit request) state with
    | ok _ s =>
      rw [hrun] at hsubmit
      exact hsubmit.congr (List.perm_append_singleton request _).symm
    | error e s =>
      rw [hrun] at hsubmit
      simpa [Except.isOk, Except.toBool, refusal?] using hsubmit
  | withdraw id why =>
    have hwithdraw : (Call.perform observer (.withdraw id why)).Ends state
        (fun _ s => s.sim.Holds state.sim.held []) fun _ s => s.sim.Holds state.sim.held [] := by
      rw [Call.perform, Observed.onSim_ends]
      exact (Simulation.withdraw_follows h).mono (fun _ _ hs => hheld.follow hs)
        fun _ _ hs => hheld.follow hs
    rw [hsame rfl]
    exact hwithdraw.outcome
  | runSteps steps =>
    rw [hsame rfl]
    exact Action.Ends.outcome (Observed.runSteps_holds observer hheld steps)
  | dispatch =>
    have hdispatch : (Call.perform observer .dispatch).Ends state
        (fun _ s => s.sim.Holds state.sim.held []) fun _ s => s.sim.Holds state.sim.held [] := by
      rw [Call.perform, Action.ends_map, Observed.onSim_ends]
      exact (Simulation.dispatchCycle_follows h).mono (fun _ _ hs => hheld.follow hs.2)
        fun _ _ hs => hheld.follow hs
    rw [hsame rfl]
    exact hdispatch.outcome

/-- After any calls, what was held and what was added is held or was lost. -/
theorem performAll_holds (h : state.sim.requests.Sound) (calls : List Call) :
    (performAll observer calls state).sim.Holds
      (state.sim.held ++ collect observer (accepted? observer) calls state)
      (collect observer (refusal? observer) calls state) := by
  induction calls generalizing state with
  | nil => simpa [collect, performAll] using Simulation.Holds.of_sound h
  | cons call rest ih =>
    have hcall := perform_holds observer h call
    have hrest := ih hcall.sound
    refine ⟨hrest.sound, List.perm_iff_count.mpr fun request => ?_⟩
    have hone := hcall.perm.count_eq request
    have hothers := hrest.perm.count_eq request
    simp only [List.count_append, collect, performAll, List.foldl_cons] at hone hothers ⊢
    omega

end Call

/-- After any calls to a new simulation, made or refused, and as long as the clock has not run over,
every request that was accepted is either still to come or registered, except for those that were
due and could not be registered; and the counts of the run are what is found by going through the
registry and the schedules. -/
theorem Simulation.all_kept_and_counted {scenario : Scenario R} {sim : Simulation R}
    (hnew : scenario.IsNew) (hhorizon : ∀ v ∈ scenario.fleet.vehicles, v.finish < .last)
    (hbuild : scenario.build = .ok sim) (observer : Observer R ω) (memory : ω)
    (calls : List Call)
    (hrange : (Call.performAll observer calls ⟨sim, memory⟩).sim.clock.InRange) :
    let start : Observed R ω := ⟨sim, memory⟩
    let reached := (Call.performAll observer calls start).sim
    let entries := reached.requests.active ++ reached.requests.archive
    let tasks := reached.fleet.vehicles.flatMap fun v => v.schedule.tasks
    let accepted :=
      scenario.requests ++ Call.collect observer (Call.accepted? observer) calls start
    let refused := Call.collect observer (Call.refusal? observer) calls start
    (accepted.Perm (reached.arrivals ++ entries.map RequestEntry.request ++ refused) ∧
      ∀ request, accepted.count request = 1 → request ∉ refused →
        (request ∈ reached.arrivals ↔ ¬reached.requests.Has request)) ∧
    reached.stats.submitted = reached.requests.activeCount + reached.requests.archivedCount ∧
    reached.stats.performed = entries.countP (fun entry => entry.status = .performed) ∧
    reached.stats.cancelled = entries.countP (fun entry => entry.status.isCancelled) ∧
    reached.stats.pickedUp = entries.countP (fun entry => entry.pickedUpAt.isSome) ∧
    reached.stats.planned = entries.countP (fun entry => entry.vehicle.isSome) ∧
    reached.stats.chargingPlanned = tasks.countP Task.isCharge ∧
    reached.stats.chargingCompleted =
      tasks.countP fun task => task.status = .performed && task.isCharge := by
  intro start reached entries tasks accepted refused
  have hbegins := scenario.build_ok hnew hbuild
  have hsound : start.sim.requests.Sound := by
    rw [show start.sim.requests = {} from hbegins.requests]
    exact Registry.sound_empty
  have hheld : start.sim.held.Perm scenario.requests := by
    rw [held, show start.sim.requests = {} from hbegins.requests]
    simpa [Registry.registered, Registry.entries] using hbegins.arrivals
  have hkept : reached.Holds accepted refused :=
    (Call.performAll_holds observer hsound calls).congr (hheld.append_right _)
  have htallies : reached.Tallied := by
    have hstart : (start.sim.InOrder [] ∧ start.sim.InSupply start.sim.now) ∧ start.sim.Tallied :=
      ⟨⟨.of_build hnew hhorizon hbuild [], .of_build hnew hbuild⟩, .of_build hnew hbuild⟩
    exact (Tallied.lasting.performAll hstart calls hrange).2
  have hall : reached.stats.submitted = reached.requests.tally .submitted :=
    htallies.reached .submitted
  rw [Registry.tally_submitted] at hall
  exact ⟨⟨hkept.perm.symm, fun _ => hkept.mem_arrivals⟩, hall, htallies.reached .performed,
    htallies.reached .cancelled, htallies.reached .pickedUp, htallies.reached .planned,
    htallies.planned.trans length_sessions, htallies.completed.trans (count_sessions _)⟩

/-- One passenger is driven, another one withdraws, and a request for a time far ahead is still to
come. A second request under the identifier of the first one is accepted ahead of its time and lost
when it is due. One of two charging sessions is over. -/
theorem Simulation.all_kept_and_counted_twoStops :
    let driven : Request := ⟨⟨0⟩, ⟨0⟩, ⟨0⟩, ⟨1⟩, .zero, none⟩
    let twice : Request := ⟨⟨0⟩, ⟨0⟩, ⟨1⟩, ⟨0⟩, .ofSecs 700, none⟩
    let withdrawn : Request := ⟨⟨1⟩, ⟨1⟩, ⟨0⟩, ⟨1⟩, .ofSecs 700, none⟩
    let ahead : Request := ⟨⟨2⟩, ⟨2⟩, ⟨1⟩, ⟨0⟩, .ofSecs 8000, none⟩
    let calls : List Call := [.submit driven, .submit twice, .submit withdrawn, .submit ahead,
      .dispatch, .runSteps 2, .runSteps 1, .withdraw ⟨1⟩ "too late", .runSteps 3]
    ∃ sim, Scenario.twoStops.build = .ok sim ∧
      let reached := (Call.performAll .quiet calls ⟨sim, ()⟩).sim
      let entries := reached.requests.active ++ reached.requests.archive
      let tasks := reached.fleet.vehicles.flatMap fun v => v.schedule.tasks
      reached.clock.InRange ∧
      [driven, twice, withdrawn, ahead].Perm
        ([ahead] ++ entries.map RequestEntry.request ++ [twice]) ∧
      reached.requests.Has withdrawn ∧ ¬reached.requests.Has ahead ∧
      2 = reached.requests.activeCount + reached.requests.archivedCount ∧
      1 = entries.countP (fun entry => entry.status = .performed) ∧
      1 = entries.countP (fun entry => entry.status.isCancelled) ∧
      1 = entries.countP (fun entry => entry.pickedUpAt.isSome) ∧
      2 = entries.countP (fun entry => entry.vehicle.isSome) ∧
      2 = tasks.countP Task.isCharge ∧
      1 = tasks.countP fun task => task.status = .performed && task.isCharge := by
  intro driven twice withdrawn ahead calls
  obtain ⟨sim, hbuild⟩ := Scenario.exists_twoStops_build
  have hhorizon : ∀ v ∈ Scenario.twoStops.fleet.vehicles, v.finish < .last := by decide +kernel
  have hrun : (Scenario.twoStops.build.toOption.map fun sim =>
      let reached := (Call.performAll .quiet calls ⟨sim, ()⟩).sim
      let stats := reached.stats
      decide (reached.clock.InRange ∧
        Call.collect .quiet (Call.accepted? .quiet) calls ⟨sim, ()⟩ =
          [driven, twice, withdrawn, ahead] ∧
        Call.collect .quiet (Call.refusal? .quiet) calls ⟨sim, ()⟩ = [twice] ∧
        reached.arrivals = [ahead] ∧
        (stats.submitted, stats.performed, stats.cancelled, stats.pickedUp) = (2, 1, 1, 1) ∧
        (stats.planned, stats.chargingPlanned, stats.chargingCompleted) = (2, 2, 1))) =
      some true := by
    decide +kernel
  rw [hbuild] at hrun
  simp only [Except.toOption, Option.map_some, Option.some.injEq, decide_eq_true_eq,
    Prod.mk.injEq] at hrun
  obtain ⟨hrange, haccepted, hrefused, harrivals,
    ⟨hsubmitted, hperformed, hcancelled, hboarded⟩, hplanned, hsessions, hcompleted⟩ := hrun
  have hresult :=
    all_kept_and_counted Scenario.twoStops_isNew hhorizon hbuild .quiet () calls hrange
  simp only [haccepted, hrefused, harrivals, hsubmitted, hperformed, hcancelled, hboarded, hplanned,
    hsessions, hcompleted] at hresult
  obtain ⟨⟨hperm, honce⟩, hcounts⟩ := hresult
  have hregistered := (honce withdrawn (by decide) (by decide)).not_left.mp (by decide)
  have hcoming := (honce ahead (by decide) (by decide)).mp (by decide)
  exact ⟨sim, hbuild, hrange, hperm, hregistered, hcoming, hcounts⟩

end DemandTransport
