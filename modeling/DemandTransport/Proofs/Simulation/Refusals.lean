import DemandTransport.Proofs.Simulation.Conservation

/-!
# Requests that are refused

A step registers the requests that are due, one after the other, and breaks off at the first one
that the registry refuses. That request has left the queue by then, those ahead of it have been
registered, and nothing else has happened, so the next step takes up where this one broke off. A
request that is refused therefore costs a step that comes to nothing else: made once more, the step
leads where it would have led without the request.
-/

namespace DemandTransport

variable {R ω : Type} [Scalar R]

/-! ## Submitting requests one after the other -/

namespace Registry

/-- Those of some requests that are refused when each is submitted to what the ones before it have
left. -/
def refusals (registry : Registry) : List Request → List Request
  | [] => []
  | request :: rest =>
    match registry.submit request with
    | .ok registry => registry.refusals rest
    | .error _ => request :: registry.refusals rest

/-- The requests ahead of the first one that is refused are accepted, and the others that are
refused stand behind it. -/
theorem exists_refusal {registry : Registry} {requests others : List Request} {b : Request}
    (h : registry.refusals requests = b :: others) :
    ∃ ahead behind registry' cause, requests = ahead ++ b :: behind ∧
      ahead.foldlM submit registry = .ok registry' ∧ registry'.submit b = .error cause ∧
      registry'.refusals behind = others := by
  induction requests generalizing registry with
  | nil => cases h
  | cons request rest ih =>
    unfold refusals at h
    split at h
    next registry₁ hsubmit =>
      obtain ⟨ahead, behind, registry', cause, rfl, hahead, hrefused, hothers⟩ := ih h
      refine ⟨request :: ahead, behind, registry', cause, rfl, ?_, hrefused, hothers⟩
      rw [List.foldlM_cons, hsubmit]
      exact hahead
    next cause hsubmit =>
      obtain ⟨rfl, hothers⟩ := List.cons.inj h
      exact ⟨[], rest, registry, cause, rfl, rfl, hsubmit, hothers⟩

end Registry

namespace Simulation

variable {sim sim' : Simulation R} {now : Time} {ahead rest arrivals : List Request} {b : Request}
  {requests : Registry} {cause : DemandError}

/-! ## What registering leaves -/

/-- The requests to come that are due at the current step. -/
def due (sim : Simulation R) : List Request :=
  sim.arrivals.filter fun request => request.submitted ≤ sim.now

/-- The simulation with another registry, to which a number of requests has been added. -/
def registering (sim : Simulation R) (requests : Registry) (count : Nat) : Simulation R :=
  { sim with
    requests := requests, stats := { sim.stats with submitted := sim.stats.submitted + count } }

omit [Scalar R]

theorem registering_registering (requests requests' : Registry) (count count' : Nat) :
    (sim.registering requests count).registering requests' count' =
      sim.registering requests' (count + count') := by
  simp only [registering, Nat.add_assoc]

/-- Registering what is due goes by the queue that it is given. -/
theorem releaseDue_arrivals (sim : Simulation R) (queue : List Request) :
    releaseDue now queue { sim with arrivals := arrivals } = releaseDue now queue sim := by
  cases queue with
  | nil => rfl
  | cons request rest =>
    rw [releaseDue]
    split <;> rfl

/-- A request that is refused leaves the simulation as it is. -/
theorem release_eq (request : Request) (sim : Simulation R) :
    release request sim =
      match sim.requests.submit request with
      | .ok requests => .ok () (sim.registering requests 1)
      | .error cause => .error (.demand cause) sim := by
  change EStateM.bind _ _ sim = _
  simp only [EStateM.bind, onRequests, Registry.InPlace.submit_eq, Action.mapError, Action.within,
    Action.change]
  cases sim.requests.submit request <;> rfl

/-- The request at the front of the queue is registered, or it is refused and the step breaks
off. -/
theorem releaseDue_cons (hdue : b.submitted ≤ now) :
    releaseDue now (b :: rest) sim =
      match sim.requests.submit b with
      | .ok requests => releaseDue now rest (sim.registering requests 1)
      | .error cause => .error (.demand cause) { sim with arrivals := rest } := by
  rw [releaseDue, if_pos hdue]
  change EStateM.bind (release b) (fun _ => releaseDue now rest) { sim with arrivals := rest } = _
  simp only [EStateM.bind, release_eq]
  cases sim.requests.submit b with
  | ok requests => exact releaseDue_arrivals (sim.registering requests 1) rest
  | error cause => rfl

/-- Requests that are due and accepted are registered in turn. -/
theorem releaseDue_append (hdue : ∀ request ∈ ahead, request.submitted ≤ now)
    (haccepted : ahead.foldlM Registry.submit sim.requests = .ok requests) :
    releaseDue now (ahead ++ rest) sim =
      releaseDue now rest (sim.registering requests ahead.length) := by
  induction ahead generalizing sim with
  | nil =>
    cases haccepted
    rfl
  | cons request ahead ih =>
    obtain ⟨hfirst, hothers⟩ := List.forall_mem_cons.mp hdue
    obtain ⟨next, hsubmit, hnext⟩ := exists_of_bind_ok haccepted
    rw [List.cons_append, releaseDue_cons hfirst, hsubmit]
    dsimp only
    rw [ih hothers hnext, registering_registering, List.length_cons, Nat.add_comm]

/-- What ends a step at a request that is refused: the requests ahead of it have been registered and
counted, it has left the queue, and nothing else has changed. -/
structure Stops (sim stopped : Simulation R) (ahead : List Request) (b : Request)
    (rest : List Request) (cause : DemandError) : Prop where
  queue : sim.arrivals = ahead ++ b :: rest
  due : ∀ request ∈ ahead ++ [b], request.submitted ≤ sim.now
  registered : ahead.foldlM Registry.submit sim.requests = .ok stopped.requests
  refused : stopped.requests.submit b = .error cause
  kept : stopped = { sim.registering stopped.requests ahead.length with arrivals := rest }

namespace Stops

variable {stopped : Simulation R}

theorem releaseDue_eq (h : sim.Stops stopped ahead b rest cause) :
    releaseDue sim.now sim.arrivals sim = .error (.demand cause) stopped := by
  obtain ⟨hahead, hb⟩ := List.forall_mem_append.mp h.due
  rw [h.queue, releaseDue_append hahead h.registered, releaseDue_cons (hb b List.mem_cons_self)]
  change (match stopped.requests.submit b with | .ok requests => _ | .error cause => _) = _
  rw [h.refused, h.kept]
  rfl

/-- Registering what is due goes on as it would have gone without the request. -/
theorem releaseDue_again (h : sim.Stops stopped ahead b rest cause) :
    releaseDue sim.now stopped.arrivals stopped =
      releaseDue sim.now (ahead ++ rest) { sim with arrivals := ahead ++ rest } := by
  obtain ⟨hahead, -⟩ := List.forall_mem_append.mp h.due
  have hspared : releaseDue sim.now (ahead ++ rest) { sim with arrivals := ahead ++ rest } =
      releaseDue sim.now rest (sim.registering stopped.requests ahead.length) :=
    (releaseDue_arrivals sim _).trans (releaseDue_append hahead h.registered)
  have hkept := h.kept
  rw [hspared]
  generalize stopped.requests = requests at hkept ⊢
  subst hkept
  exact releaseDue_arrivals _ rest

end Stops

/-- If the registry refuses some of the requests that are due, the step ends at the first of them,
and the others are refused where it has ended. -/
theorem InTurn.exists_stops (h : InTurn sim.arrivals) {others : List Request}
    (hrefused : sim.requests.refusals sim.due = b :: others) :
    ∃ stopped ahead rest cause, sim.Stops stopped ahead b rest cause ∧
      stopped.requests.refusals stopped.due = others := by
  obtain ⟨later, hqueue, hlater⟩ := h.exists_later sim.now
  obtain ⟨ahead, behind, requests, cause, hdue, hahead, hb, hothers⟩ :=
    Registry.exists_refusal hrefused
  have hall : ∀ request ∈ (ahead ++ [b]) ++ behind, request.submitted ≤ sim.now := by
    rw [← List.append_cons, ← hdue]
    intro request hrequest
    exact of_decide_eq_true (List.mem_filter.mp hrequest).2
  obtain ⟨hfirst, hbehind⟩ := List.forall_mem_append.mp hall
  have hleft : (behind ++ later).filter (fun request => request.submitted ≤ sim.now) = behind := by
    rw [List.filter_append, List.filter_eq_self.mpr fun request hrequest =>
      decide_eq_true (hbehind request hrequest), hlater, List.append_nil]
  refine ⟨{ sim.registering requests ahead.length with arrivals := behind ++ later }, ahead,
    behind ++ later, cause, ⟨?_, hfirst, hahead, hb, rfl⟩, ?_⟩
  · rw [hqueue]
    change sim.due ++ later = _
    rw [hdue, List.append_assoc, List.cons_append]
  · rw [← hothers]
    exact congrArg _ hleft

end Simulation

/-! ## The queue in the course of a run -/

namespace Simulation

/-- The registry is sound, and the requests to come are in the order of their submission. -/
def Queues (sim : Simulation R) : Prop :=
  sim.requests.Sound ∧ InTurn sim.arrivals

omit [Scalar R] in
theorem Queues.follow {sim sim' : Simulation R} (h : sim.Queues) (hfollows : sim.Follows sim') :
    sim'.Queues :=
  ⟨hfollows.requests.sound, hfollows.arrivals ▸ h.2⟩

/-- The order lasts: requests leave the queue at its front, and others join it in their place. -/
theorem queues_lasting : Lasting (R := R) Queues Queues fun _ => True where
  release sim _ h := by
    refine releaseDue_ends (Q := fun arrivals s => Queues { s with arrivals := arrivals })
      (fun request rest s hs _ => ?_) (fun _ _ _ hs => hs) h
    have hrest : InTurn rest := (List.pairwise_cons.mp hs.2).2
    exact release_ends (fun _ hok => ⟨(hs.1.accepts hok).sound, hrest⟩) fun _ _ => ⟨hs.1, hrest⟩
  execute sim _ h := by
    refine (execute_follows h.1).mono (fun _ _ happly => ⟨fun _ _ => trivial, ?_⟩)
      fun _ _ hs => h.follow hs
    exact happly.mono (fun _ _ hs => h.follow hs) fun _ _ hs => h.follow hs
  dispatch sim _ h :=
    (dispatchCycle_follows h.1).mono (fun _ _ hs => h.follow hs.2) fun _ _ hs => h.follow hs
  tick sim _ h := by
    simp only [tick, count, Action.ends_bind, Action.ends_modify]
    exact h
  submit request sim _ h :=
    submit_ends
      (fun _ => release_ends (fun _ hok => ⟨(h.1.accepts hok).sound, h.2⟩) fun _ _ => h)
      ⟨h.1, h.2.enqueue⟩ h
  withdraw id why sim _ h :=
    (withdraw_follows h.1).mono (fun _ _ hs => h.follow hs) fun _ _ hs => h.follow hs
  byHand sim _ h :=
    (dispatchCycle_follows h.1).mono (fun _ _ hs => h.follow hs.2) fun _ _ hs => h.follow hs

theorem queues_of_build {scenario : Scenario R} {sim : Simulation R}
    (hbuild : scenario.build = .ok sim) : sim.Queues := by
  obtain ⟨dispatcher, planner, chargers, -, -, -, -, rfl⟩ := Scenario.build_eq hbuild
  exact ⟨Registry.sound_empty, inTurn_mergeSort scenario.requests⟩

end Simulation

/-! ## What an observer makes no difference to -/

namespace Observed

variable {ω' α β : Type} {observer : Observer R ω} {observer' : Observer R ω'}

/-- What an action answers, and the simulation that it leaves. -/
def answer (action : Action (SimulationError R) (Observed R ω) α) (state : Observed R ω) :
    Except (SimulationError R) α × Simulation R :=
  ((action.outcome state).1, (action.outcome state).2.sim)

/-- Two actions do the same to every simulation, whatever their observers remember. -/
def Mirrors (action : Action (SimulationError R) (Observed R ω) α)
    (action' : Action (SimulationError R) (Observed R ω') α) : Prop :=
  ∀ sim memory memory', answer action ⟨sim, memory⟩ = answer action' ⟨sim, memory'⟩

namespace Mirrors

omit [Scalar R]

theorem onSim (action : Action (SimulationError R) (Simulation R) α) :
    Mirrors (Observed.onSim action : Action (SimulationError R) (Observed R ω) α)
      (Observed.onSim action : Action (SimulationError R) (Observed R ω') α) := by
  intro sim memory memory'
  simp only [answer, Action.outcome, Observed.onSim, Action.within]
  cases action sim <;> rfl

theorem tell (notice notice' : Notice R) :
    Mirrors (Observed.tell observer notice) (Observed.tell observer' notice') :=
  fun _ _ _ => rfl

/-- So do two actions in a row. -/
theorem bind {action : Action (SimulationError R) (Observed R ω) α}
    {action' : Action (SimulationError R) (Observed R ω') α}
    {next : α → Action (SimulationError R) (Observed R ω) β}
    {next' : α → Action (SimulationError R) (Observed R ω') β} (h : Mirrors action action')
    (hnext : ∀ a, Mirrors (next a) (next' a)) : Mirrors (action >>= next) (action' >>= next') := by
  intro sim memory memory'
  have hfirst := h sim memory memory'
  change answer (EStateM.bind action next) _ = answer (EStateM.bind action' next') _
  simp only [answer, Action.outcome, EStateM.bind] at hfirst ⊢
  cases hrun : action ⟨sim, memory⟩ with
  | ok a s =>
    cases hrun' : action' ⟨sim, memory'⟩ with
    | ok a' s' =>
      simp only [hrun, hrun', Prod.mk.injEq, Except.ok.injEq] at hfirst ⊢
      obtain ⟨rfl, hsim⟩ := hfirst
      obtain ⟨sim₁, memory₁⟩ := s
      obtain ⟨_, memory₁'⟩ := s'
      obtain rfl : sim₁ = _ := hsim
      exact Prod.mk.inj (hnext a sim₁ memory₁ memory₁')
    | error e s' => simp [hrun, hrun'] at hfirst
  | error e s =>
    cases hrun' : action' ⟨sim, memory'⟩ with
    | ok a' s' => simp [hrun, hrun'] at hfirst
    | error e' s' => simpa [hrun, hrun'] using hfirst

end Mirrors

/-- How a step ends, with or without a dispatch cycle. -/
def conclude (observer : Observer R ω) (now : Time) (dispatches : Bool) :
    Action (SimulationError R) (Observed R ω) Unit := do
  if dispatches then
    let report ← onSim Simulation.dispatchCycle
    tell observer (.dispatched report)
  tell observer (.stepEnds now)
  onSim Simulation.tick

/-- What a step does once the requests that are due have been registered. -/
def proceed (observer : Observer R ω) (now : Time) (dispatches : Bool) :
    Action (SimulationError R) (Observed R ω) Unit := do
  let events ← onSim (Simulation.execute now)
  onSim (Simulation.apply events)
  if !events.isEmpty then tell observer (.events now events)
  conclude observer now dispatches

/-- A step proceeds from what is left when the requests that are due have been registered, unless
one of them has been refused. -/
theorem step_eq (observer : Observer R ω) (state : Observed R ω) :
    step observer state =
      match Simulation.releaseDue state.sim.now state.sim.arrivals state.sim with
      | .ok _ sim =>
        proceed observer state.sim.now (state.sim.config.isDispatchStep state.sim.clock.step)
          ⟨sim, observer (.stepBegins state.sim.now) state.memory⟩
      | .error e sim => .error e ⟨sim, observer (.stepBegins state.sim.now) state.memory⟩ := by
  change EStateM.bind (onSim (Simulation.releaseDue state.sim.now state.sim.arrivals)) (fun _ =>
    proceed observer state.sim.now (state.sim.config.isDispatchStep state.sim.clock.step))
    ⟨state.sim, observer (.stepBegins state.sim.now) state.memory⟩ = _
  simp only [EStateM.bind, onSim, Action.within]
  cases Simulation.releaseDue state.sim.now state.sim.arrivals state.sim <;> rfl

theorem mirrors_conclude (now : Time) (dispatches : Bool) :
    Mirrors (conclude observer now dispatches) (conclude observer' now dispatches) := by
  have hend : Mirrors (do tell observer (.stepEnds now); onSim Simulation.tick)
      (do tell observer' (.stepEnds now); onSim Simulation.tick) :=
    .bind (.tell _ _) fun _ => .onSim _
  unfold conclude
  dsimp only
  split
  · exact .bind (.onSim _) fun _ => .bind (.tell _ _) fun _ => hend
  · exact hend

theorem mirrors_proceed (now : Time) (dispatches : Bool) :
    Mirrors (proceed observer now dispatches) (proceed observer' now dispatches) := by
  unfold proceed
  refine .bind (.onSim _) fun events => .bind (.onSim _) fun _ => ?_
  dsimp only
  split
  · exact .bind (.tell _ _) fun _ => mirrors_conclude now dispatches
  · exact mirrors_conclude now dispatches

/-- A step does the same to two simulations that register the same requests at the same time. -/
theorem step_answer {sim sim' : Simulation R} (hclock : sim'.clock = sim.clock)
    (hconfig : sim'.config = sim.config)
    (hrelease : Simulation.releaseDue sim.now sim'.arrivals sim' =
      Simulation.releaseDue sim.now sim.arrivals sim) (memory : ω) (memory' : ω') :
    answer (step observer) ⟨sim, memory⟩ = answer (step observer') ⟨sim', memory'⟩ := by
  have hnow : sim'.now = sim.now := by rw [Simulation.now, hclock, Simulation.now]
  simp only [answer, Action.outcome, step_eq, hnow, hclock, hconfig, hrelease]
  cases Simulation.releaseDue sim.now sim.arrivals sim with
  | ok _ released => exact mirrors_proceed _ _ released _ _
  | error e stopped => rfl

end Observed

/-! ## The cost of a refusal -/

/-- When the registry refuses some of the requests that are due, the step breaks off at the first of
them. It has registered the requests ahead of this one and has taken it out of the queue, and it has
done nothing else; only the other ones are refused from then on. Made once more, the step does what
it would have done if this request had never been in the queue. -/
theorem Simulation.refusal_costs_a_step {scenario : Scenario R} {sim : Simulation R}
    (hbuild : scenario.build = .ok sim) (observer : Observer R ω) (memory : ω) (calls : List Call)
    {b : Request} {others : List Request} :
    let reached := Call.performAll observer calls ⟨sim, memory⟩
    reached.sim.requests.refusals reached.sim.due = b :: others →
      ∃ stopped ahead rest cause, reached.sim.Stops stopped ahead b rest cause ∧
        Observed.step observer reached =
          .error (.demand cause) ⟨stopped, observer (.stepBegins reached.sim.now) reached.memory⟩ ∧
        stopped.requests.refusals stopped.due = others ∧
        ∀ before before', Observed.answer (Observed.step observer) ⟨stopped, before⟩ =
          Observed.answer (Observed.step observer)
            ⟨{ reached.sim with arrivals := ahead ++ rest }, before'⟩ := by
  intro reached hrefused
  have hqueues : reached.sim.Queues :=
    queues_lasting.performAll (queues_of_build hbuild) calls trivial
  obtain ⟨stopped, ahead, rest, cause, hstops, hothers⟩ := hqueues.2.exists_stops hrefused
  have hclock : stopped.clock = reached.sim.clock := by
    rw [hstops.kept]
    rfl
  have hconfig : stopped.config = reached.sim.config := by
    rw [hstops.kept]
    rfl
  refine ⟨stopped, ahead, rest, cause, hstops, ?_, hothers, fun before before' => ?_⟩
  · rw [Observed.step_eq, hstops.releaseDue_eq]
  · refine Observed.step_answer ?_ ?_ ?_ before before'
    · exact hclock.symm
    · exact hconfig.symm
    · rw [Simulation.now, hclock]
      exact hstops.releaseDue_again.symm

/-- Of three requests that are due, the second one has the identifier of the first one. The step
breaks off and leaves the third one in the queue, and made once more it does what it would have done
with the first and the third one. -/
theorem Simulation.refusal_costs_a_step_twoStops :
    let a : Request := ⟨⟨0⟩, ⟨0⟩, ⟨0⟩, ⟨1⟩, .ofSecs 700, none⟩
    let b : Request := ⟨⟨0⟩, ⟨1⟩, ⟨0⟩, ⟨1⟩, .ofSecs 700, none⟩
    let c : Request := ⟨⟨1⟩, ⟨1⟩, ⟨1⟩, ⟨0⟩, .ofSecs 700, none⟩
    let calls : List Call := [.submit a, .submit b, .submit c, .runSteps 1]
    ∃ sim, Scenario.twoStops.build = .ok sim ∧
      let reached := Call.performAll .quiet calls ⟨sim, ()⟩
      reached.sim.requests.refusals reached.sim.due = [b] ∧
      ∃ cause stopped, Observed.step .quiet reached = .error (.demand cause) ⟨stopped, ()⟩ ∧
        stopped.arrivals = [c] ∧ stopped.stats.submitted = 1 ∧
        Observed.answer (Observed.step .quiet) ⟨stopped, ()⟩ =
          Observed.answer (Observed.step .quiet) ⟨{ reached.sim with arrivals := [a, c] }, ()⟩ := by
  intro a b c calls
  obtain ⟨sim, hbuild⟩ := Scenario.exists_twoStops_build
  have hrun : (Scenario.twoStops.build.toOption.map fun sim =>
      let reached := (Call.performAll .quiet calls ⟨sim, ()⟩).sim
      (reached.requests.refusals reached.due, reached.arrivals, reached.stats.submitted)) =
      some ([b], [a, b, c], 0) := by
    decide +kernel
  rw [hbuild] at hrun
  simp only [Except.toOption, Option.map_some, Option.some.injEq, Prod.mk.injEq] at hrun
  obtain ⟨hrefusals, harrivals, hsubmitted⟩ := hrun
  obtain ⟨stopped, ahead, rest, cause, hstops, hstep, -, hagain⟩ :=
    refusal_costs_a_step hbuild .quiet () calls hrefusals
  obtain ⟨rfl, rfl⟩ : ahead = [a] ∧ rest = [c] := by
    have hqueue := harrivals.symm.trans hstops.queue
    rcases ahead with _ | ⟨first, _ | ⟨second, _ | ⟨third, ahead⟩⟩⟩ <;>
      simp_all [a, b, c]
  refine ⟨sim, hbuild, hrefusals, cause, stopped, hstep, ?_, ?_, hagain () ()⟩
  · rw [hstops.kept]
  · rw [hstops.kept]
    exact congrArg (· + 1) hsubmitted

end DemandTransport
