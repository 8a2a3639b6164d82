import DemandTransport.Proofs.Clock
import DemandTransport.Proofs.Demand.Lifecycle
import DemandTransport.Proofs.Execution.Course
import DemandTransport.Proofs.Fleet.Roster
import DemandTransport.Simulation.Run

/-!
# The phases of a step

A step registers the requests that are due, executes the schedules, notes what has happened and, at
some steps, dispatches. For each phase there is one rule that reduces it to what it does to the
vehicles, the chargers and the registry; a step as a whole is put together from them here, once for
all properties.
-/

namespace DemandTransport

variable {R ω : Type} [Scalar R]

/-- The events that an observer is told of. -/
def Notice.told : Notice R → List (TaskEvent R)
  | .events _ happened => happened
  | _ => []

/-- The observer that remembers everything it is told. -/
def Observer.log : Observer R (List (Notice R)) := fun notice notices => notices ++ [notice]

/-! ## Each phase -/

namespace Simulation

variable {sim : Simulation R}

omit [Scalar R] in
/-- Registering the requests that are due, one after the other, until the first one that is not.
`Q` tells what holds while some requests are still to come. -/
theorem releaseDue_ends {now : Time} {arrivals : List Request}
    {Q : List Request → Simulation R → Prop} {post fail : Simulation R → Prop}
    (hnext : ∀ request rest sim, Q (request :: rest) sim → request.submitted ≤ now →
      (release request).Ends { sim with arrivals := rest } (fun _ s => Q rest s) fun _ s => fail s)
    (hdone : ∀ arrivals sim, (∀ request ∈ arrivals.head?, ¬request.submitted ≤ now) →
      Q arrivals sim → post { sim with arrivals := arrivals })
    (h : Q arrivals sim) :
    (releaseDue now arrivals).Ends sim (fun _ s => post s) fun _ s => fail s := by
  induction arrivals generalizing sim with
  | nil => exact hdone [] sim (by simp) h
  | cons request rest ih =>
    rw [releaseDue]
    split
    next hdue =>
      simp only [Action.ends_bind, Action.ends_modify]
      exact (hnext request rest sim h hdue).mono (fun _ _ hs => ih hs) fun _ _ hs => hs
    next hlater => exact hdone (request :: rest) sim (by simpa using hlater) h

omit [Scalar R] in
/-- Registering a request changes the registry and a count. -/
theorem release_ends {request : Request} {post fail : Simulation R → Prop}
    (hok : ∀ requests, sim.requests.submit request = .ok requests →
      post { sim with
        requests := requests, stats := { sim.stats with submitted := sim.stats.submitted + 1 } })
    (hfail : ∀ e, sim.requests.submit request = .error e → fail sim) :
    (release request).Ends sim (fun _ s => post s) fun _ s => fail s := by
  simp only [release, onRequests, count, Action.ends_bind, Action.ends_mapError, Action.ends_within,
    Registry.InPlace.submit_eq, Action.ends_change, Action.ends_modify]
  split
  · exact hok _ ‹_›
  · exact hfail _ ‹_›

omit [Scalar R] in
/-- Submitting a request registers it at once or puts it among those to come; one that does not
begin and end at nodes of the network changes nothing. -/
theorem submit_ends {request : Request} {post fail : Simulation R → Prop}
    (hdue : request.submitted ≤ sim.now →
      (release request).Ends sim (fun _ s => post s) fun _ s => fail s)
    (hlater : post { sim with arrivals := enqueue request sim.arrivals }) (hfail : fail sim) :
    (submit request).Ends sim (fun _ s => post s) fun _ s => fail s := by
  simp only [submit, Action.ends_bind, Action.ends_ask, Action.ends_get]
  split
  · split
    · exact hdue ‹_›
    · exact hlater
  · exact hfail

omit [Scalar R] in
/-- Registering requests does nothing to the vehicles. -/
theorem releaseDue_fleet {now : Time} {arrivals : List Request} :
    (releaseDue now arrivals).Ends sim (fun _ s => s.fleet = sim.fleet)
      fun _ s => s.fleet = sim.fleet :=
  releaseDue_ends (Q := fun _ s => s.fleet = sim.fleet)
    (fun _ _ _ hs _ => release_ends (fun _ _ => hs) fun _ _ => hs) (fun _ _ _ hs => hs) rfl

omit [Scalar R] in
/-- Nor does submitting one. -/
theorem submit_fleet {request : Request} :
    (submit request).Ends sim (fun _ s => s.fleet = sim.fleet) fun _ s => s.fleet = sim.fleet :=
  submit_ends (fun _ => release_ends (fun _ _ => rfl) fun _ _ => rfl) rfl rfl

omit [Scalar R] in
/-- The clock stands still while requests are registered. -/
theorem releaseDue_clock {now : Time} {arrivals : List Request} :
    (releaseDue now arrivals).Ends sim (fun _ s => s.clock = sim.clock)
      fun _ s => s.clock = sim.clock :=
  releaseDue_ends (Q := fun _ s => s.clock = sim.clock)
    (fun _ _ _ hs _ => release_ends (fun _ _ => hs) fun _ _ => hs) (fun _ _ _ hs => hs) rfl

omit [Scalar R] in
theorem submit_clock {request : Request} :
    (submit request).Ends sim (fun _ s => s.clock = sim.clock) fun _ s => s.clock = sim.clock :=
  submit_ends (fun _ => release_ends (fun _ _ => rfl) fun _ _ => rfl) rfl rfl

/-- Withdrawing a request takes it back from its vehicle, if it has one, and changes the registry
and a count. -/
theorem withdraw_keeps {P : Simulation R → Prop} {id : RequestId} {why : String}
    (hretract : ∀ vehicle, (retract vehicle id).Ends sim (fun _ s => P s) fun _ s => P s)
    (hcancel : ∀ s requests, P s → P { s with
      requests := requests, stats := { s.stats with cancelled := s.stats.cancelled + 1 } })
    (h : P sim) : (withdraw id why).Ends sim (fun _ s => P s) fun _ s => P s := by
  have hcancelled {s : Simulation R} (hs : P s) :
      (do
        let sim ← get
        onRequests (Registry.InPlace.markCancelled id (.withdrawn why) sim.now)
        count fun stats => { stats with cancelled := stats.cancelled + 1 } :
          Action (SimulationError R) (Simulation R) Unit).Ends s
        (fun _ t => P t) fun _ t => P t := by
    simp only [onRequests, count, Action.ends_bind, Action.ends_get, Action.ends_mapError,
      Action.ends_within, Registry.InPlace.markCancelled_eq, Action.ends_change, Action.ends_modify]
    split
    · exact hcancel s _ hs
    · exact hs
  simp only [withdraw, Action.ends_bind, Action.ends_ask]
  split
  · split
    · exact hcancelled h
    · rw [Action.ends_bind]
      exact (hretract _).mono (fun _ _ hs => hcancelled hs) fun _ _ hs => hs
    · exact h
  · exact h

/-- The clock stands still while a request is withdrawn. -/
theorem withdraw_clock {id : RequestId} {why : String} :
    (withdraw id why).Ends sim (fun _ s => s.clock = sim.clock) fun _ s => s.clock = sim.clock := by
  refine withdraw_keeps (fun vehicle => ?_) (fun _ _ hs => hs) rfl
  unfold Action.Ends retract
  cases sim.vehicle vehicle with
  | error e => rfl
  | ok v =>
    dsimp only
    cases Vehicle.retract id v <;> rfl

/-- Taking a request back is up to its vehicle. -/
theorem retract_ends {vehicle : VehicleId} {request : RequestId} {a b : List (Vehicle R)}
    {v : Vehicle R} {post : Unit → Simulation R → Prop}
    {fail : SimulationError R → Simulation R → Prop}
    (hsplit : sim.fleet.vehicles = a ++ v :: b) (hid : a.length = vehicle.index) :
    (retract vehicle request).Ends sim post fail ↔
      (Vehicle.retract request).Ends v (fun _ v' => post () { sim with fleet := ⟨a ++ v' :: b⟩ })
        fun e v' => fail (.dispatch e) { sim with fleet := ⟨a ++ v' :: b⟩ } := by
  unfold Action.Ends retract Simulation.vehicle
  simp only [Fleet.get_split hsplit hid, Fleet.set_split hsplit hid, Except.mapError]
  cases Vehicle.retract request v <;> rfl

/-- Executing the schedules makes beats, and all vehicles come as far as the present. -/
theorem execute_ends {ε γ : Type} {now : Time} {note : γ → TaskEvent R → Except ε γ}
    {I : List (Vehicle R) → ChargerPool R → γ → Prop} (h : Steady now note I) {account : γ}
    (hmovements : sim.movements.length = sim.fleet.size)
    (hI : I sim.fleet.vehicles sim.chargers account) :
    (execute now).Ends sim
      (fun events sim' => ∃ fleet movements chargers account',
        sim' = { sim with fleet := fleet, movements := movements, chargers := chargers } ∧
        movements.length = fleet.size ∧ (∀ v ∈ fleet.vehicles, v.schedule.Settled now) ∧
        events.foldlM note account = .ok account' ∧ I fleet.vehicles chargers account')
      fun _ _ => False := by
  simp only [execute, Action.ends_mapError, Action.ends_within]
  have hadvance := @FleetState.advance_ends R _ ε γ now note I h account
    ⟨sim.fleet, sim.movements, sim.chargers⟩ hmovements hI
  refine hadvance.mono ?_ fun _ _ h => h
  rintro events ⟨fleet, movements, chargers⟩ ⟨hlength, hsettled, account', hnoted, hlast⟩
  exact ⟨fleet, movements, chargers, account', rfl, hlength, hsettled, hnoted, hlast⟩

/-- The clock stands still while schedules are executed. -/
theorem execute_clock {now : Time} :
    (execute now).Ends sim (fun _ s => s.clock = sim.clock) fun _ s => s.clock = sim.clock := by
  simp only [execute, Action.ends_mapError, Action.ends_within]
  exact .of_forall (fun _ _ => trivial) fun _ _ => trivial

omit [Scalar R] in
/-- An event is noted entirely or not at all. -/
theorem noteEvent_eq (event : TaskEvent R) :
    noteEvent event = Action.change (registryChange event) := by
  unfold noteEvent registryChange
  split
  · exact Registry.InPlace.markPickedUp_eq _ _
  · exact Registry.InPlace.markPerformed_eq _ _
  · rfl

/-- Noting events of which none can fail to be noted. -/
theorem apply_ends {events : List (TaskEvent R)} {requests : Registry}
    (h : events.foldlM (fun requests event => registryChange event requests) sim.requests =
      .ok requests) :
    (apply events).Ends sim
      (fun _ sim' => sim' =
        { sim with requests := requests, stats := events.foldl RunStats.recordEvent sim.stats })
      fun _ _ => False := by
  induction events generalizing sim with
  | nil =>
    cases h
    rfl
  | cons event rest ih =>
    simp only [List.foldlM_cons, bind, Except.bind] at h
    split at h
    · cases h
    next changed hchanged =>
      simp only [apply, onRequests, count, Action.ends_bind, Action.ends_mapError,
        Action.ends_within, noteEvent_eq, Action.ends_change, hchanged, Action.ends_modify]
      exact ih h

/-- Noting events changes the registry and the counts, whether or not it breaks off. -/
theorem apply_keeps {told : TaskEvent R → Prop} {P : Simulation R → Prop}
    (hP : ∀ sim event requests, told event → registryChange event sim.requests = .ok requests →
      P sim → P { sim with requests := requests, stats := sim.stats.recordEvent event })
    {events : List (TaskEvent R)} (htold : ∀ event ∈ events, told event) (h : P sim) :
    (apply events).Ends sim (fun _ s => P s) fun _ s => P s := by
  induction events generalizing sim with
  | nil => exact h
  | cons event rest ih =>
    simp only [apply, onRequests, count, Action.ends_bind, Action.ends_mapError, Action.ends_within,
      noteEvent_eq, Action.ends_change, Action.ends_modify]
    split
    next requests hchanged =>
      exact ih (fun next hnext => htold next (List.mem_cons_of_mem _ hnext))
        (hP sim event requests (htold event List.mem_cons_self) hchanged h)
    · exact h

theorem apply_fleet {events : List (TaskEvent R)} :
    (apply events).Ends sim (fun _ s => s.fleet = sim.fleet) fun _ s => s.fleet = sim.fleet :=
  @apply_keeps R _ sim (fun _ => True) (fun s => s.fleet = sim.fleet) (fun _ _ _ _ _ hs => hs)
    events (fun _ _ => trivial) rfl

theorem apply_clock {events : List (TaskEvent R)} :
    (apply events).Ends sim (fun _ s => s.clock = sim.clock) fun _ s => s.clock = sim.clock :=
  @apply_keeps R _ sim (fun _ => True) (fun s => s.clock = sim.clock) (fun _ _ _ _ _ hs => hs)
    events (fun _ _ => trivial) rfl

/-- Every event that has been noted has been counted. -/
theorem apply_stats {events : List (TaskEvent R)} :
    (apply events).Ends sim (fun _ s => s.stats = events.foldl RunStats.recordEvent sim.stats)
      fun _ _ => True := by
  induction events generalizing sim with
  | nil => rfl
  | cons event rest ih =>
    simp only [apply, onRequests, count, Action.ends_bind, Action.ends_mapError, Action.ends_within,
      noteEvent_eq, Action.ends_change, Action.ends_modify]
    split
    · exact ih
    · trivial

/-- A dispatch cycle is followed by the planning of charging sessions, which its report lists. -/
theorem dispatchCycle_ends {post : DispatchReport R → Fleet R → Registry → Prop}
    {fail : Fleet R → Registry → Prop}
    (h : (sim.dispatcher.runCycle sim.network sim.router sim.now).Ends ⟨sim.fleet, sim.requests⟩
      (fun report op =>
        (sim.planner.plan sim.network sim.router sim.now sim.chargers).Ends op.fleet
          (fun charging fleet => post { report with charging := charging } fleet op.requests)
          fun _ fleet => fail fleet op.requests)
      fun _ op => fail op.fleet op.requests) :
    dispatchCycle.Ends sim
      (fun report sim' => ∃ fleet requests, post report fleet requests ∧
        sim' = { sim with
          fleet := fleet, requests := requests, stats := sim.stats.recordDispatch report })
      fun _ sim' => ∃ fleet requests, fail fleet requests ∧
        sim' = { sim with fleet := fleet, requests := requests } := by
  simp only [dispatchCycle, onOperation, Operation.onFleet, count, Action.ends_bind,
    Action.ends_get, Action.ends_mapError, Action.ends_within, Action.ends_modify, Action.ends_pure]
  refine h.mono (fun report op hop => ?_) fun _ op hop => ⟨op.fleet, op.requests, hop, rfl⟩
  refine hop.mono (fun charging fleet hfleet => ?_) fun _ fleet hfleet => ?_
  · exact ⟨fleet, op.requests, hfleet, rfl⟩
  · exact ⟨fleet, op.requests, hfleet, rfl⟩

/-- The clock stands still in a dispatch cycle. -/
theorem dispatchCycle_clock :
    dispatchCycle.Ends sim (fun _ s => s.clock = sim.clock) fun _ s => s.clock = sim.clock := by
  have hends := @dispatchCycle_ends R _ sim (fun _ _ _ => True) (fun _ _ => True)
    (.of_forall (fun _ _ => .of_forall (fun _ _ => trivial) fun _ _ => trivial) fun _ _ => trivial)
  refine hends.mono ?_ ?_
  · rintro report _ ⟨fleet, requests, -, rfl⟩
    rfl
  · rintro - _ ⟨fleet, requests, -, rfl⟩
    rfl

omit [Scalar R] in
theorem tick_clock :
    tick.Ends sim (fun _ s => s.clock = sim.clock.advance) fun _ _ => False := by
  simp only [tick, count, Action.ends_bind, Action.ends_modify]

end Simulation

/-! ## A step as a whole -/

/-- What holds of a simulation and of all events that have been told in the course of a step: `Pre`
at its begin, `Begun` once requests have been registered, `Mid` once the schedules have been
executed, `Post` at its end, and `fail` when a phase has failed; all of it while the clock meets a
condition. -/
structure Narrated (Pre Begun Mid Post fail : List (TaskEvent R) → Simulation R → Prop)
    (While : Clock → Prop := fun _ => True) : Prop where
  /-- Requests that are due are registered. -/
  release : ∀ past sim, While sim.clock → Pre past sim →
    (Simulation.releaseDue sim.now sim.arrivals).Ends sim (fun _ sim' => Begun past sim')
      fun _ sim' => fail past sim'
  /-- Schedules are executed, and what has happened is noted before it is told. -/
  execute : ∀ past sim, While sim.clock → Begun past sim → (Simulation.execute sim.now).Ends sim
    (fun events sim' => (Simulation.apply events).Ends sim'
      (fun _ sim'' => Mid (past ++ events) sim'') fun _ sim'' => fail past sim'')
    fun _ sim' => fail past sim'
  /-- Requests are dispatched, and vehicles are sent to charge. -/
  dispatch : ∀ past sim, While sim.clock → Mid past sim →
    Simulation.dispatchCycle.Ends sim (fun _ sim' => Mid past sim') fun _ sim' => fail past sim'
  /-- The clock moves on. -/
  tick : ∀ past sim, While sim.clock.advance → Mid past sim →
    Simulation.tick.Ends sim (fun _ sim' => Post past sim') fun _ sim' => fail past sim'

/-- How a property holds through a step that does not depend on what has been told before. The
events of the step satisfy `told`. -/
structure Phased (Pre Mid fail : Simulation R → Prop) (told : TaskEvent R → Prop)
    (While : Clock → Prop := fun _ => True) : Prop where
  /-- Requests that are due are registered. -/
  release : ∀ sim, While sim.clock → Pre sim →
    (Simulation.releaseDue sim.now sim.arrivals).Ends sim (fun _ sim' => Pre sim')
      fun _ sim' => fail sim'
  /-- Schedules are executed, and what has happened is noted. -/
  execute : ∀ sim, While sim.clock → Pre sim → (Simulation.execute sim.now).Ends sim
    (fun events sim' => (∀ event ∈ events, told event) ∧
      (Simulation.apply events).Ends sim' (fun _ sim'' => Mid sim'') fun _ sim'' => fail sim'')
    fun _ sim' => fail sim'
  /-- Requests are dispatched, and vehicles are sent to charge. -/
  dispatch : ∀ sim, While sim.clock → Mid sim →
    Simulation.dispatchCycle.Ends sim (fun _ sim' => Mid sim') fun _ sim' => fail sim'
  /-- The clock moves on. -/
  tick : ∀ sim, While sim.clock.advance → Mid sim →
    Simulation.tick.Ends sim (fun _ sim' => Pre sim') fun _ sim' => fail sim'

namespace Phased

variable {Pre Pre' Mid Mid' fail fail' K L : Simulation R → Prop} {told told' : TaskEvent R → Prop}
  {While : Clock → Prop}

/-- What holds through a step at all times holds through it while the clock meets a condition. -/
theorem meanwhile (h : Phased Pre Mid fail told) : Phased Pre Mid fail told While where
  release sim _ := h.release sim trivial
  execute sim _ := h.execute sim trivial
  dispatch sim _ := h.dispatch sim trivial
  tick sim _ := h.tick sim trivial

/-- Two properties hold together through a step. -/
theorem and (h : Phased Pre Mid fail told While) (h' : Phased Pre' Mid' fail' told' While) :
    Phased (fun sim => Pre sim ∧ Pre' sim) (fun sim => Mid sim ∧ Mid' sim)
      (fun sim => fail sim ∧ fail' sim) (fun event => told event ∧ told' event) While where
  release sim hwhile hsim := (h.release sim hwhile hsim.1).and (h'.release sim hwhile hsim.2)
  execute sim hwhile hsim := by
    refine ((h.execute sim hwhile hsim.1).and (h'.execute sim hwhile hsim.2)).mono ?_
      fun _ _ hs => hs
    rintro events s ⟨⟨htold, happly⟩, htold', happly'⟩
    exact ⟨fun event hevent => ⟨htold event hevent, htold' event hevent⟩, happly.and happly'⟩
  dispatch sim hwhile hsim := (h.dispatch sim hwhile hsim.1).and (h'.dispatch sim hwhile hsim.2)
  tick sim hwhile hsim := (h.tick sim hwhile hsim.1).and (h'.tick sim hwhile hsim.2)

/-- A property that does not depend on what has been told holds while something else does. -/
theorem narrated (h : Phased Pre Mid fail told While) :
    Narrated (fun past sim => (∀ event ∈ past, told event) ∧ Pre sim)
      (fun past sim => (∀ event ∈ past, told event) ∧ Pre sim)
      (fun past sim => (∀ event ∈ past, told event) ∧ Mid sim)
      (fun past sim => (∀ event ∈ past, told event) ∧ Pre sim)
      (fun past sim => (∀ event ∈ past, told event) ∧ fail sim) While where
  release past sim hwhile hsim :=
    (h.release sim hwhile hsim.2).mono (fun _ _ hs => ⟨hsim.1, hs⟩) fun _ _ hs => ⟨hsim.1, hs⟩
  execute past sim hwhile hsim := by
    refine (h.execute sim hwhile hsim.2).mono (fun events s hs => ?_) fun _ _ hs => ⟨hsim.1, hs⟩
    refine hs.2.mono (fun _ _ ht => ⟨?_, ht⟩) fun _ _ ht => ⟨hsim.1, ht⟩
    exact List.forall_mem_append.mpr ⟨hsim.1, hs.1⟩
  dispatch past sim hwhile hsim :=
    (h.dispatch sim hwhile hsim.2).mono (fun _ _ hs => ⟨hsim.1, hs⟩) fun _ _ hs => ⟨hsim.1, hs⟩
  tick past sim hwhile hsim :=
    (h.tick sim hwhile hsim.2).mono (fun _ _ hs => ⟨hsim.1, hs⟩) fun _ _ hs => ⟨hsim.1, hs⟩

/-- A property that each phase keeps, given another one that holds through a step, holds through the
step as well: `K` at its begin and where it fails, and `L` once the schedules have been executed. -/
theorem with_kept (h : Phased Pre Mid fail told While)
    (hrelease : ∀ sim, While sim.clock → Pre sim → K sim →
      (Simulation.releaseDue sim.now sim.arrivals).Ends sim (fun _ s => K s) fun _ s => K s)
    (hexecute : ∀ sim, While sim.clock → Pre sim → K sim → (Simulation.execute sim.now).Ends sim
      (fun events s => (Simulation.apply events).Ends s (fun _ t => L t) fun _ t => K t)
      fun _ s => K s)
    (hdispatch : ∀ sim, While sim.clock → Mid sim → L sim →
      Simulation.dispatchCycle.Ends sim (fun _ s => L s) fun _ s => K s)
    (htick : ∀ sim, While sim.clock.advance → Mid sim → L sim →
      Simulation.tick.Ends sim (fun _ s => K s) fun _ s => K s) :
    Phased (fun sim => Pre sim ∧ K sim) (fun sim => Mid sim ∧ L sim)
      (fun sim => fail sim ∧ K sim) told While where
  release sim hwhile hsim :=
    (h.release sim hwhile hsim.1).and (hrelease sim hwhile hsim.1 hsim.2)
  execute sim hwhile hsim := by
    refine ((h.execute sim hwhile hsim.1).and (hexecute sim hwhile hsim.1 hsim.2)).mono ?_
      fun _ _ hs => hs
    rintro events s ⟨⟨htold, happly⟩, hkept⟩
    exact ⟨htold, happly.and hkept⟩
  dispatch sim hwhile hsim :=
    (h.dispatch sim hwhile hsim.1).and (hdispatch sim hwhile hsim.1 hsim.2)
  tick sim hwhile hsim := (h.tick sim hwhile hsim.1).and (htick sim hwhile hsim.1 hsim.2)

end Phased

namespace Observed

section Narration

variable {Pre Begun Mid Post fail : List (TaskEvent R) → Simulation R → Prop}
  {While : Clock → Prop} {J : List (TaskEvent R) → ω → Prop} {observer : Observer R ω}
  {state : Observed R ω}

omit [Scalar R] in
/-- An action on the simulation leaves the observer's memory alone. -/
theorem onSim_ends {α : Type} {action : Action (SimulationError R) (Simulation R) α}
    {post : α → Observed R ω → Prop} {failed : SimulationError R → Observed R ω → Prop} :
    (onSim action).Ends state post failed ↔
      action.Ends state.sim (fun a sim => post a ⟨sim, state.memory⟩)
        fun e sim => failed e ⟨sim, state.memory⟩ := by
  rw [onSim, Action.ends_within]

/-- A property of the simulation and one of the observer's memory, both at the same past. -/
def Shares (P : List (TaskEvent R) → Simulation R → Prop) (J : List (TaskEvent R) → ω → Prop)
    (state : Observed R ω) : Prop :=
  ∃ past, P past state.sim ∧ J past state.memory

/-- A step that goes through its phases, with an observer that notes what it is told. The clock
moves on unless the step fails, and if it still meets the condition then, so does all else. -/
theorem step_shares (h : Narrated Pre Begun Mid Post fail While)
    (hJ : ∀ past notice memory, J past memory → J (past ++ notice.told) (observer notice memory))
    (hwhile : While state.sim.clock) (hstate : state.Shares Pre J) :
    (step observer).Ends state
      (fun _ s => s.sim.clock = state.sim.clock.advance ∧ (While s.sim.clock → s.Shares Post J))
      fun _ s => s.sim.clock = state.sim.clock ∧ s.Shares fail J := by
  obtain ⟨past, hpre, hmemory⟩ := hstate
  have hquiet {past : List (TaskEvent R)} (notice : Notice R) (memory : ω)
      (hnotice : notice.told = []) (hm : J past memory) : J past (observer notice memory) := by
    simpa [hnotice] using hJ past notice memory hm
  simp only [step, tell, onSim_ends, Action.ends_bind, Action.ends_get, Action.ends_modify]
  have hbegun := hquiet (.stepBegins state.sim.now) _ rfl hmemory
  refine ((h.release past state.sim hwhile hpre).and Simulation.releaseDue_clock).mono ?_
    fun _ _ hfail => ⟨hfail.2, past, hfail.1, hbegun⟩
  rintro - released ⟨hreleased, hclock⟩
  have hexecute := (h.execute past released (hclock ▸ hwhile) hreleased).and
    Simulation.execute_clock
  rw [Simulation.now, hclock] at hexecute
  refine hexecute.mono ?_ fun _ _ hfail => ⟨hfail.2, past, hfail.1, hbegun⟩
  rintro events executed ⟨happly, hexecuted⟩
  refine (happly.and Simulation.apply_clock).mono ?_
    fun _ _ hfail => ⟨hfail.2.trans hexecuted, past, hfail.1, hbegun⟩
  rintro - applied ⟨happlied, hpresent⟩
  rw [hexecuted] at hpresent
  have hevents := hJ past (.events state.sim.now events) _ hbegun
  have hend {memory : ω} {sim : Simulation R} (hm : J (past ++ events) memory)
      (hmid : Mid (past ++ events) sim) (hsim : sim.clock = state.sim.clock) :
      Simulation.tick.Ends sim
        (fun _ s => s.clock = state.sim.clock.advance ∧ (While s.clock →
          Shares Post J ⟨s, observer (.stepEnds state.sim.now) memory⟩))
        fun _ s => s.clock = state.sim.clock ∧
          Shares fail J ⟨s, observer (.stepEnds state.sim.now) memory⟩ := by
    have hended := hquiet (.stepEnds state.sim.now) memory rfl hm
    rw [← hsim]
    by_cases hnext : While sim.clock.advance
    · exact ((h.tick _ sim hnext hmid).and Simulation.tick_clock).mono
        (fun _ _ hs => ⟨hs.2, fun _ => ⟨_, hs.1, hended⟩⟩) fun _ _ hfail => hfail.2.elim
    · exact Simulation.tick_clock.mono
        (fun _ _ hs => ⟨hs, fun hlater => absurd (hs ▸ hlater) hnext⟩) fun _ _ hfail => hfail.elim
  have hdispatch {memory : ω} (hm : J (past ++ events) memory) :
      Simulation.dispatchCycle.Ends applied
        (fun report s => (Mid (past ++ events) s ∧ s.clock = state.sim.clock) ∧
          J (past ++ events) (observer (.dispatched report) memory))
        fun _ s => s.clock = state.sim.clock ∧ Shares fail J ⟨s, memory⟩ := by
    have hends := (h.dispatch _ applied (hpresent ▸ hwhile) happlied).and
      Simulation.dispatchCycle_clock
    rw [hpresent] at hends
    exact hends.mono (fun report _ hs => ⟨hs, hquiet (.dispatched report) memory rfl hm⟩)
      fun _ _ hfail => ⟨hfail.2, _, hfail.1, hm⟩
  split
  · rw [Action.ends_bind, Action.ends_modify]
    split
    · simp only [Action.ends_bind, Action.ends_modify, onSim_ends]
      exact (hdispatch hevents).mono (fun _ _ h' => hend h'.2 h'.1.1 h'.1.2) fun _ _ h' => h'
    · simp only [Action.ends_bind, Action.ends_modify, onSim_ends]
      exact hend hevents happlied hpresent
  next hsilent =>
    have hnone : events = [] := by simpa using hsilent
    rw [← List.append_nil past, ← hnone] at hbegun
    split
    · simp only [Action.ends_bind, Action.ends_modify, onSim_ends]
      exact (hdispatch hbegun).mono (fun _ _ h' => hend h'.2 h'.1.1 h'.1.2) fun _ _ h' => h'
    · simp only [Action.ends_bind, Action.ends_modify, onSim_ends]
      exact hend hbegun happlied hpresent

/-- The clock moves on by one step, or not at all if the step fails. -/
theorem step_clock :
    (step observer).Ends state (fun _ s => s.sim.clock = state.sim.clock.advance)
      fun _ s => s.sim.clock = state.sim.clock := by
  let Always (_ : List (TaskEvent R)) (_ : Simulation R) : Prop := True
  have hphases : Narrated Always Always Always Always Always := {
    release := fun _ _ _ _ => .of_forall (fun _ _ => trivial) fun _ _ => trivial
    execute := fun _ _ _ _ =>
      .of_forall (fun _ _ => .of_forall (fun _ _ => trivial) fun _ _ => trivial) fun _ _ => trivial
    dispatch := fun _ _ _ _ => .of_forall (fun _ _ => trivial) fun _ _ => trivial
    tick := fun _ _ _ _ => .of_forall (fun _ _ => trivial) fun _ _ => trivial }
  exact (step_shares (J := fun _ _ => True) hphases (fun _ _ _ _ => trivial) trivial
    ⟨[], trivial, trivial⟩).mono (fun _ _ hs => hs.1) fun _ _ hs => hs.1

/-- A number of steps that go through their phases. -/
theorem runSteps_shares [Clock.Lasts While] (h : Narrated Pre Begun Mid Pre fail While)
    (hJ : ∀ past notice memory, J past memory → J (past ++ notice.told) (observer notice memory))
    (hstate : While state.sim.clock → state.Shares Pre J) (steps : Nat) :
    (runSteps observer steps).Ends state (fun _ s => While s.sim.clock → s.Shares Pre J)
      fun _ s => While s.sim.clock → s.Shares fail J := by
  induction steps generalizing state with
  | zero => exact hstate
  | succ steps ih =>
    rw [runSteps, Action.ends_bind]
    by_cases hwhile : While state.sim.clock
    · exact (step_shares h hJ hwhile (hstate hwhile)).mono (fun _ _ hs => ih hs.2)
        fun _ _ hfail _ => hfail.2
    · refine step_clock.mono (fun _ s hs => ih fun hlater => ?_) fun _ s hs hstill => ?_
      · rw [hs] at hlater
        exact absurd (Clock.Lasts.of_advance hlater) hwhile
      · exact absurd (hs ▸ hstill) hwhile

end Narration

section Kinds

variable {Pre Mid fail : Simulation R → Prop} {told : TaskEvent R → Prop} {While : Clock → Prop}
  {J : ω → Prop} {observer : Observer R ω} {state : Observed R ω}

/-- A property of the observer's memory, if all events so far are of one kind. -/
def Noted (told : TaskEvent R → Prop) (J : ω → Prop) (past : List (TaskEvent R)) (memory : ω) :
    Prop :=
  (∀ event ∈ past, told event) → J memory

omit [Scalar R] in
theorem noted_told (hJ : ∀ notice memory, (∀ event ∈ notice.told, told event) →
      J memory → J (observer notice memory)) (past : List (TaskEvent R)) (notice : Notice R)
    (memory : ω) (h : Noted told J past memory) :
    Noted told J (past ++ notice.told) (observer notice memory) := by
  intro hall
  obtain ⟨hold, hnew⟩ := List.forall_mem_append.mp hall
  exact hJ notice memory hnew (h hold)

omit [Scalar R] in
/-- If the past tells of one kind of events only, nothing more need be known of it. -/
theorem shares_noted_iff :
    state.Shares (fun past sim => (∀ event ∈ past, told event) ∧ Pre sim) (Noted told J) ↔
      Pre state.sim ∧ J state.memory := by
  constructor
  · rintro ⟨past, ⟨htold, hsim⟩, hmemory⟩
    exact ⟨hsim, hmemory htold⟩
  · rintro ⟨hsim, hmemory⟩
    exact ⟨[], ⟨by simp, hsim⟩, fun _ => hmemory⟩

/-- A number of steps that go through their phases, with events that are all of one kind. -/
theorem runSteps_ends [Clock.Lasts While] (h : Phased Pre Mid fail told While)
    (hJ : ∀ notice memory, (∀ event ∈ notice.told, told event) →
      J memory → J (observer notice memory))
    (hstate : While state.sim.clock → Pre state.sim ∧ J state.memory) (steps : Nat) :
    (runSteps observer steps).Ends state
      (fun _ s => While s.sim.clock → Pre s.sim ∧ J s.memory)
      fun _ s => While s.sim.clock → fail s.sim ∧ J s.memory := by
  have hends := runSteps_shares h.narrated (noted_told hJ)
    (fun hwhile => shares_noted_iff.mpr (hstate hwhile)) steps
  simpa only [shares_noted_iff] using hends

/-- What holds through every step holds through any number of them. -/
theorem runSteps_keeps (h : Phased Pre Mid fail told) (hpre : Pre state.sim) (steps : Nat) :
    (runSteps observer steps).Ends state (fun _ s => Pre s.sim) fun _ s => fail s.sim := by
  have hends : (runSteps observer steps).Ends state (fun _ s => True → Pre s.sim ∧ True)
      fun _ s => True → fail s.sim ∧ True :=
    runSteps_ends (J := fun _ => True) h (fun _ _ _ _ => trivial) (fun _ => ⟨hpre, trivial⟩) steps
  exact hends.mono (fun _ _ hs => (hs trivial).1) fun _ _ hs => (hs trivial).1

end Kinds

end Observed

end DemandTransport
