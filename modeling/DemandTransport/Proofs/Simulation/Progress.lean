import DemandTransport.Proofs.Simulation.Agreement
import DemandTransport.Proofs.Simulation.Arrivals

/-!
# A simulation does not fail while it runs

A simulation that was built from new vehicles can always make further steps and dispatch, whatever
was submitted, withdrawn and executed before. The only thing asked of the callers is what the
registry asks of every request: no two have one identifier, and no window closes before it opens.
-/

namespace DemandTransport

variable {R ω : Type} [Scalar R]

/-- A simulation that can accept some requests, one after the other. -/
structure Simulation.Expects (coming : List Request) (sim : Simulation R) : Prop where
  /-- Vehicles and registry agree, and the requests are not registered yet. -/
  order : sim.InOrder (coming.map Request.id)
  /-- No two of them have one identifier. -/
  distinct : (coming.map Request.id).Nodup
  /-- No window closes before it opens. -/
  windows : ∀ request ∈ coming, ∀ window ∈ request.window, window.earliest ≤ window.latest

namespace Simulation.Expects

variable {sim : Simulation R} {coming later : List Request} {request : Request}

omit [Scalar R] in
/-- Fewer requests may come. -/
theorem sublist (h : sim.Expects coming) (hsub : later.Subperm coming) : sim.Expects later := by
  obtain ⟨l, hperm, hsub⟩ := hsub
  have hmem : ∀ r ∈ later, r ∈ coming := fun r hr => hsub.subset (hperm.mem_iff.mpr hr)
  obtain ⟨hequipped, hmovements, hagree⟩ := h.order
  refine ⟨⟨hequipped, hmovements, { hagree with unknown := fun id hid => ?_ }⟩, ?_,
    fun r hr => h.windows r (hmem r hr)⟩
  · obtain ⟨r, hr, rfl⟩ := List.mem_map.mp hid
    exact hagree.unknown _ (List.mem_map_of_mem (hmem r hr))
  · exact (hperm.map Request.id).nodup_iff.mp (h.distinct.sublist (hsub.map Request.id))

omit [Scalar R] in
/-- A request that is expected is registered. -/
theorem release (h : sim.Expects (request :: coming)) :
    (Simulation.release request).Ends sim
      (fun _ s => s.Expects coming ∧ s.arrivals = sim.arrivals) fun _ _ => False := by
  obtain ⟨hfresh, hdistinct⟩ := List.nodup_cons.mp h.distinct
  have hnew := h.order.agreement.unknown request.id (by simp)
  have hlater : ∀ id ∈ coming.map Request.id,
      id ∈ (request :: coming).map Request.id ∧ id ≠ request.id :=
    fun id hid => ⟨List.mem_cons_of_mem _ hid, fun heq => hfresh (heq ▸ hid)⟩
  obtain ⟨requests, hsubmit⟩ := Registry.exists_submit hnew (h.windows request List.mem_cons_self)
  have hrefused : ∀ e, sim.requests.submit request = .error e → False := by
    intro e he
    rw [hsubmit] at he
    cases he
  have hrelease : (Simulation.release request).Ends sim
      (fun _ s => s.InOrder (coming.map Request.id) ∧ s.arrivals = sim.arrivals)
      fun _ _ => False := h.order.release hlater hrefused
  refine hrelease.mono ?_ fun _ _ hfail => hfail
  rintro - s ⟨horder, harrivals⟩
  exact ⟨⟨horder, hdistinct, fun r hr => h.windows r (List.mem_cons_of_mem _ hr)⟩, harrivals⟩

omit [Scalar R] in
/-- The requests to come may be held in any order. -/
theorem setArrivals (h : sim.Expects coming) (arrivals : List Request)
    (hperm : coming.Perm later) : Expects later { sim with arrivals := arrivals } := by
  obtain ⟨horder, hdistinct, hwindows⟩ := h.sublist hperm.symm.subperm
  exact ⟨horder.setArrivals arrivals, hdistinct, hwindows⟩

/-- A step goes through, whatever requests are still to be submitted. -/
theorem phased (later : List Request) :
    Phased (fun sim : Simulation R => sim.Expects (sim.arrivals ++ later))
      (fun sim => sim.Expects (sim.arrivals ++ later)) (fun _ => False) fun _ => True where
  release sim _ h :=
    releaseDue_ends (Q := fun arrivals s => s.Expects (arrivals ++ later))
      (fun _ rest _ hs _ => (hs.setArrivals rest (.refl _)).release.mono (fun _ _ hs' => hs'.1)
        fun _ _ hfail => hfail)
      (fun arrivals _ _ hs => hs.setArrivals arrivals (.refl _)) h
  execute sim _ h := by
    refine h.order.execute.mono (fun events s hs => ⟨fun _ _ => trivial, ?_⟩) fun _ _ hfail => hfail
    refine hs.mono ?_ fun _ _ hfail => hfail
    rintro - t ⟨horder, harrivals⟩
    rw [harrivals]
    exact ⟨horder, h.distinct, h.windows⟩
  dispatch sim _ h := by
    refine h.order.dispatch.mono ?_ fun _ _ hfail => hfail
    rintro - t ⟨horder, harrivals⟩
    rw [harrivals]
    exact ⟨horder, h.distinct, h.windows⟩
  tick sim _ h := by
    refine h.order.tick.mono ?_ fun _ _ hfail => hfail
    rintro - t ⟨horder, harrivals⟩
    rw [harrivals]
    exact ⟨horder, h.distinct, h.windows⟩

/-- So does a dispatch cycle. -/
theorem dispatch (h : sim.Expects (sim.arrivals ++ later)) :
    dispatchCycle.Ends sim (fun _ s => s.Expects (s.arrivals ++ later)) fun _ _ => False :=
  (phased later).dispatch sim trivial h

/-- A call, whatever its answer, leaves the requests of the later calls expected. -/
theorem perform {observer : Observer R ω} {state : Observed R ω} {call : Call} {rest : List Call}
    (h : state.sim.Expects (state.sim.arrivals ++ (call :: rest).filterMap Call.submission?)) :
    (call.perform observer).Ends state
      (fun _ s => s.sim.Expects (s.sim.arrivals ++ rest.filterMap Call.submission?))
      fun _ s => s.sim.Expects (s.sim.arrivals ++ rest.filterMap Call.submission?) := by
  cases call with
  | submit request =>
    have hcoming := h.setArrivals state.sim.arrivals List.perm_middle
    rw [Call.perform, Observed.onSim_ends]
    refine submit_ends (fun _ => ?_) ?_ ?_
    · refine hcoming.release.mono ?_ fun _ _ hfail => hfail.elim
      rintro - s ⟨hs, harrivals⟩
      rwa [harrivals]
    · exact hcoming.setArrivals _ ((enqueue_perm request _).append_right _)
    · exact hcoming.sublist (List.sublist_cons_self _ _).subperm
  | withdraw id why =>
    rw [Call.perform, Observed.onSim_ends]
    refine (h.order.withdraw id why).mono ?_ fun _ s hs => by rw [hs]; exact h
    rintro - s ⟨horder, harrivals⟩
    rw [harrivals]
    exact ⟨horder, h.distinct, h.windows⟩
  | runSteps steps =>
    exact (Observed.runSteps_keeps (phased _) h steps).of_no_failure
  | dispatch =>
    rw [Call.perform, Action.ends_map, Observed.onSim_ends]
    exact h.dispatch.of_no_failure

theorem performAll {observer : Observer R ω} {state : Observed R ω} {calls : List Call}
    (h : state.sim.Expects (state.sim.arrivals ++ calls.filterMap Call.submission?)) :
    let reached := (Call.performAll observer calls state).sim
    reached.Expects (reached.arrivals ++ []) :=
  Call.performAll_keeps
    (P := fun rest s => s.sim.Expects (s.sim.arrivals ++ rest.filterMap Call.submission?))
    (fun _ _ _ hs => hs.perform) h

/-- A new simulation can accept its requests and others. -/
theorem of_build {scenario : Scenario R} (hnew : scenario.IsNew)
    (hhorizon : ∀ v ∈ scenario.fleet.vehicles, v.finish < .last)
    (hbuild : scenario.build = .ok sim)
    (hdistinct : ((scenario.requests ++ later).map Request.id).Nodup)
    (hwindows : ∀ request ∈ scenario.requests ++ later, ∀ window ∈ request.window,
      window.earliest ≤ window.latest) : sim.Expects (sim.arrivals ++ later) := by
  have hperm := (scenario.build_ok hnew hbuild).arrivals.append_right later
  refine ⟨.of_build hnew hhorizon hbuild _, (hperm.map Request.id).nodup_iff.mpr hdistinct, ?_⟩
  exact fun request hrequest => hwindows request (hperm.mem_iff.mp hrequest)

end Simulation.Expects

/-- After any calls to a new simulation, made or refused, any number of further steps go through,
and so does a dispatch cycle, if all requests of the scenario and of the calls have identifiers of
their own and windows that do not close before they open. -/
theorem Simulation.steps_succeed {scenario : Scenario R} {sim : Simulation R}
    (hnew : scenario.IsNew) (hhorizon : ∀ v ∈ scenario.fleet.vehicles, v.finish < .last)
    (hbuild : scenario.build = .ok sim) (observer : Observer R ω) (memory : ω) {calls : List Call}
    (hdistinct : ((scenario.requests ++ calls.filterMap Call.submission?).map Request.id).Nodup)
    (hwindows : ∀ request ∈ scenario.requests ++ calls.filterMap Call.submission?,
      ∀ window ∈ request.window, window.earliest ≤ window.latest) :
    let reached := Call.performAll observer calls ⟨sim, memory⟩
    (∀ steps, ∃ later, Observed.runSteps observer steps reached = .ok () later) ∧
    ∃ report later, dispatchCycle reached.sim = .ok report later := by
  intro reached
  have hstart : (⟨sim, memory⟩ : Observed R ω).sim.Expects
      (sim.arrivals ++ calls.filterMap Call.submission?) :=
    .of_build hnew hhorizon hbuild hdistinct hwindows
  have h : reached.sim.Expects (reached.sim.arrivals ++ []) := hstart.performAll
  refine ⟨fun steps => ?_, ?_⟩
  · have hends : (Observed.runSteps observer steps).Ends reached
        (fun _ s => s.sim.Expects (s.sim.arrivals ++ [])) fun _ _ => False :=
      Observed.runSteps_keeps (Expects.phased []) h steps
    obtain ⟨_, later, hrun, -⟩ := hends.exists_ok
    exact ⟨later, hrun⟩
  · obtain ⟨report, later, hrun, -⟩ := h.dispatch.exists_ok
    exact ⟨report, later, hrun⟩

/-- After a withdrawn request and a request for later, ten more steps go through. -/
theorem Simulation.steps_succeed_twoStops :
    let calls : List Call := [.submit ⟨⟨0⟩, ⟨0⟩, ⟨1⟩, ⟨0⟩, .zero, none⟩, .runSteps 1,
      .withdraw ⟨0⟩ "no longer needed",
      .submit ⟨⟨1⟩, ⟨1⟩, ⟨0⟩, ⟨1⟩, .ofSecs 1400, some ⟨.ofSecs 1500, .ofSecs 4000⟩⟩, .dispatch]
    ∃ sim, Scenario.twoStops.build = .ok sim ∧
      ∃ later, Observed.runSteps .quiet 10 (Call.performAll .quiet calls ⟨sim, ()⟩) =
        .ok () later := by
  intro calls
  obtain ⟨sim, hbuild⟩ := Scenario.exists_twoStops_build
  have hhorizon : ∀ v ∈ Scenario.twoStops.fleet.vehicles, v.finish < .last := by decide +kernel
  have hdistinct : ((Scenario.twoStops.requests ++ calls.filterMap Call.submission?).map
      Request.id).Nodup := by decide
  have hwindows : ∀ request ∈ Scenario.twoStops.requests ++ calls.filterMap Call.submission?,
      ∀ window ∈ request.window, window.earliest ≤ window.latest := by decide
  have hsucceed :=
    steps_succeed Scenario.twoStops_isNew hhorizon hbuild .quiet () hdistinct hwindows
  exact ⟨sim, hbuild, hsucceed.1 10⟩

end DemandTransport
