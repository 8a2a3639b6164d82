import DemandTransport.Dispatch.Candidates
import DemandTransport.Proofs.Dispatch.Evaluation
import DemandTransport.Proofs.Fleet.Roster
import DemandTransport.Proofs.Network.Reach
import DemandTransport.Proofs.Simulation.Phases

/-!
# Calls to a simulation

A simulation is used by four kinds of calls, each of which may fail: a request is submitted, a
request is withdrawn, a number of steps is made, and a dispatch cycle is run by hand. What holds of
new simulations and is kept by all calls holds of every simulation in use.
-/

namespace DemandTransport

variable {R ω : Type} [Scalar R]

/-- A call to a simulation. -/
inductive Call where
  | submit (request : Request)
  | withdraw (id : RequestId) (why : String)
  | runSteps (steps : Nat)
  | dispatch
  deriving Repr

namespace Call

/-- The request that a call submits. -/
def submission? : Call → Option Request
  | submit request => some request
  | _ => none

/-- Make a call, whatever it answers. -/
def perform (observer : Observer R ω) : Call → Action (SimulationError R) (Observed R ω) Unit
  | submit request => Observed.onSim (Simulation.submit request)
  | withdraw id why => Observed.onSim (Simulation.withdraw id why)
  | runSteps steps => Observed.runSteps observer steps
  | dispatch => (fun _ => ()) <$> Observed.onSim Simulation.dispatchCycle

/-- The simulation after some calls, each made on what the one before it left, whether or not that
one failed. -/
def performAll (observer : Observer R ω) (calls : List Call) (state : Observed R ω) :
    Observed R ω :=
  calls.foldl (fun state call => ((call.perform observer).outcome state).2) state

/-- What every call keeps, with the calls that are still to come, holds in the end. -/
theorem performAll_keeps {observer : Observer R ω} {P : List Call → Observed R ω → Prop}
    (hP : ∀ call rest state, P (call :: rest) state →
      (call.perform observer).Ends state (fun _ s => P rest s) fun _ s => P rest s)
    {calls : List Call} {state : Observed R ω} (h : P calls state) :
    P [] (performAll observer calls state) := by
  induction calls generalizing state with
  | nil => exact h
  | cons call rest ih => exact ih (hP call rest state h).outcome

end Call

/-- A property of simulations and of all events that have been told that every call keeps, whatever
its answer, while the clock meets a condition: `Pre` holds between calls, and `Mid` where a step
dispatches. -/
structure Enduring (Pre Mid : List (TaskEvent R) → Simulation R → Prop)
    (While : Clock → Prop := fun _ => True) : Prop extends
    Narrated Pre Pre Mid Pre Pre While where
  /-- A request is submitted. -/
  submit : ∀ request past sim, While sim.clock → Pre past sim →
    (Simulation.submit request).Ends sim (fun _ s => Pre past s) fun _ s => Pre past s
  /-- A request is withdrawn. -/
  withdraw : ∀ id why past sim, While sim.clock → Pre past sim →
    (Simulation.withdraw id why).Ends sim (fun _ s => Pre past s) fun _ s => Pre past s
  /-- A dispatch cycle is run by hand. -/
  byHand : ∀ past sim, While sim.clock → Pre past sim →
    Simulation.dispatchCycle.Ends sim (fun _ s => Pre past s) fun _ s => Pre past s

namespace Enduring

variable {Pre Mid : List (TaskEvent R) → Simulation R → Prop} {While : Clock → Prop}
  {J : List (TaskEvent R) → ω → Prop} {observer : Observer R ω} {state : Observed R ω}

omit [Scalar R] in
/-- An action between two steps, during which the clock stands still. -/
theorem onSim_shares {α : Type} {action : Action (SimulationError R) (Simulation R) α}
    (hclock : action.Ends state.sim (fun _ s => s.clock = state.sim.clock)
      fun _ s => s.clock = state.sim.clock)
    (haction : ∀ past, While state.sim.clock → Pre past state.sim →
      action.Ends state.sim (fun _ s => Pre past s) fun _ s => Pre past s)
    (hstate : While state.sim.clock → state.Shares Pre J) :
    (Observed.onSim action).Ends state (fun _ s => While s.sim.clock → s.Shares Pre J)
      fun _ s => While s.sim.clock → s.Shares Pre J := by
  rw [Observed.onSim_ends]
  by_cases hwhile : While state.sim.clock
  · obtain ⟨past, hpre, hmemory⟩ := hstate hwhile
    exact (haction past hwhile hpre).mono (fun _ _ hs _ => ⟨past, hs, hmemory⟩)
      fun _ _ hs _ => ⟨past, hs, hmemory⟩
  · exact hclock.mono (fun _ _ hs hstill => absurd (hs ▸ hstill) hwhile)
      fun _ _ hs hstill => absurd (hs ▸ hstill) hwhile

/-- A call keeps what endures, with an observer that notes what it is told. -/
theorem perform [Clock.Lasts While] (h : Enduring Pre Mid While)
    (hJ : ∀ past notice memory, J past memory → J (past ++ notice.told) (observer notice memory))
    (hstate : While state.sim.clock → state.Shares Pre J) (call : Call) :
    (call.perform observer).Ends state (fun _ s => While s.sim.clock → s.Shares Pre J)
      fun _ s => While s.sim.clock → s.Shares Pre J := by
  cases call with
  | submit request =>
    exact onSim_shares Simulation.submit_clock (fun past => h.submit request past state.sim) hstate
  | withdraw id why =>
    exact onSim_shares Simulation.withdraw_clock (fun past => h.withdraw id why past state.sim)
      hstate
  | runSteps steps => exact Observed.runSteps_shares h.toNarrated hJ hstate steps
  | dispatch =>
    rw [Call.perform, Action.ends_map]
    exact onSim_shares Simulation.dispatchCycle_clock (fun past => h.byHand past state.sim) hstate

/-- So do any calls. -/
theorem performAll [Clock.Lasts While] (h : Enduring Pre Mid While)
    (hJ : ∀ past notice memory, J past memory → J (past ++ notice.told) (observer notice memory))
    (hstate : state.Shares Pre J) (calls : List Call)
    (hwhile : While (Call.performAll observer calls state).sim.clock) :
    (Call.performAll observer calls state).Shares Pre J :=
  Call.performAll_keeps (P := fun _ s => While s.sim.clock → s.Shares Pre J)
    (fun call _ _ hs => h.perform hJ hs call) (fun _ => hstate) hwhile

end Enduring

/-- A property of simulations that every call keeps, whatever its answer and whatever has been told
before, while the clock meets a condition: `Pre` holds between calls, and `Mid` where a step
dispatches. -/
structure Lasting (Pre Mid : Simulation R → Prop) (told : TaskEvent R → Prop)
    (While : Clock → Prop := fun _ => True) : Prop extends
    Phased Pre Mid Pre told While where
  /-- A request is submitted. -/
  submit : ∀ request sim, While sim.clock → Pre sim →
    (Simulation.submit request).Ends sim (fun _ s => Pre s) fun _ s => Pre s
  /-- A request is withdrawn. -/
  withdraw : ∀ id why sim, While sim.clock → Pre sim →
    (Simulation.withdraw id why).Ends sim (fun _ s => Pre s) fun _ s => Pre s
  /-- A dispatch cycle is run by hand. -/
  byHand : ∀ sim, While sim.clock → Pre sim →
    Simulation.dispatchCycle.Ends sim (fun _ s => Pre s) fun _ s => Pre s

namespace Lasting

variable {Pre Pre' Mid Mid' : Simulation R → Prop} {told told' : TaskEvent R → Prop}
  {While : Clock → Prop} {observer : Observer R ω} {state : Observed R ω} {J : ω → Prop}

/-- What lasts at all times lasts while the clock meets a condition. -/
theorem meanwhile (h : Lasting Pre Mid told) : Lasting Pre Mid told While where
  toPhased := h.toPhased.meanwhile
  submit request sim _ := h.submit request sim trivial
  withdraw id why sim _ := h.withdraw id why sim trivial
  byHand sim _ := h.byHand sim trivial

/-- Two properties that last hold together. -/
theorem and (h : Lasting Pre Mid told While) (h' : Lasting Pre' Mid' told' While) :
    Lasting (fun sim => Pre sim ∧ Pre' sim) (fun sim => Mid sim ∧ Mid' sim)
      (fun event => told event ∧ told' event) While where
  toPhased := h.toPhased.and h'.toPhased
  submit request sim hwhile hsim :=
    (h.submit request sim hwhile hsim.1).and (h'.submit request sim hwhile hsim.2)
  withdraw id why sim hwhile hsim :=
    (h.withdraw id why sim hwhile hsim.1).and (h'.withdraw id why sim hwhile hsim.2)
  byHand sim hwhile hsim := (h.byHand sim hwhile hsim.1).and (h'.byHand sim hwhile hsim.2)

/-- A property that every phase and every call keeps, given another one that lasts, lasts as well:
`K` between calls, and `L` where a step dispatches. -/
theorem with_kept {K L : Simulation R → Prop} (h : Lasting Pre Mid told While)
    (hphased : Phased (fun sim => Pre sim ∧ K sim) (fun sim => Mid sim ∧ L sim)
      (fun sim => Pre sim ∧ K sim) told While)
    (hsubmit : ∀ request sim, While sim.clock → Pre sim → K sim →
      (Simulation.submit request).Ends sim (fun _ s => K s) fun _ s => K s)
    (hwithdraw : ∀ id why sim, While sim.clock → Pre sim → K sim →
      (Simulation.withdraw id why).Ends sim (fun _ s => K s) fun _ s => K s)
    (hbyHand : ∀ sim, While sim.clock → Pre sim → K sim →
      Simulation.dispatchCycle.Ends sim (fun _ s => K s) fun _ s => K s) :
    Lasting (fun sim => Pre sim ∧ K sim) (fun sim => Mid sim ∧ L sim) told While where
  toPhased := hphased
  submit request sim hwhile hsim :=
    (h.submit request sim hwhile hsim.1).and (hsubmit request sim hwhile hsim.1 hsim.2)
  withdraw id why sim hwhile hsim :=
    (h.withdraw id why sim hwhile hsim.1).and (hwithdraw id why sim hwhile hsim.1 hsim.2)
  byHand sim hwhile hsim :=
    (h.byHand sim hwhile hsim.1).and (hbyHand sim hwhile hsim.1 hsim.2)

/-- What lasts endures. -/
theorem enduring (h : Lasting Pre Mid told While) :
    Enduring (fun past sim => (∀ event ∈ past, told event) ∧ Pre sim)
      (fun past sim => (∀ event ∈ past, told event) ∧ Mid sim) While where
  toNarrated := h.toPhased.narrated
  submit request _ sim hwhile hsim := (h.submit request sim hwhile hsim.2).mono
    (fun _ _ hs => ⟨hsim.1, hs⟩) fun _ _ hs => ⟨hsim.1, hs⟩
  withdraw id why _ sim hwhile hsim := (h.withdraw id why sim hwhile hsim.2).mono
    (fun _ _ hs => ⟨hsim.1, hs⟩) fun _ _ hs => ⟨hsim.1, hs⟩
  byHand _ sim hwhile hsim := (h.byHand sim hwhile hsim.2).mono
    (fun _ _ hs => ⟨hsim.1, hs⟩) fun _ _ hs => ⟨hsim.1, hs⟩

/-- What lasts holds after any calls, and an observer has been told of events of its kind only. -/
theorem performAll_told [Clock.Lasts While] (h : Lasting Pre Mid told While)
    (hJ : ∀ notice memory, (∀ event ∈ notice.told, told event) →
      J memory → J (observer notice memory))
    (hpre : Pre state.sim) (hmemory : J state.memory) (calls : List Call)
    (hwhile : While (Call.performAll observer calls state).sim.clock) :
    Pre (Call.performAll observer calls state).sim ∧
      J (Call.performAll observer calls state).memory :=
  Observed.shares_noted_iff.mp <| h.enduring.performAll (Observed.noted_told hJ)
    (Observed.shares_noted_iff.mpr ⟨hpre, hmemory⟩) calls hwhile

/-- What lasts holds after any calls. -/
theorem performAll [Clock.Lasts While] (h : Lasting Pre Mid told While) (hpre : Pre state.sim)
    (calls : List Call) (hwhile : While (Call.performAll observer calls state).sim.clock) :
    Pre (Call.performAll observer calls state).sim :=
  (h.performAll_told (J := fun _ => True) (fun _ _ _ _ => trivial) hpre trivial calls hwhile).1

end Lasting

/-! ## New simulations -/

/-- What a simulation has besides its state: a sound router, service times, and a planner that knows
at which times schedules are executed. -/
structure Simulation.Equipped (sim : Simulation R) : Prop where
  router : sim.router.Sound
  pickup : sim.dispatcher.config.pickupSecs ≠ 0
  dropoff : sim.dispatcher.config.dropoffSecs ≠ 0
  grid : sim.planner.grid = ⟨sim.clock.start, sim.clock.stepSecs⟩
  stepSecs : sim.clock.stepSecs ≠ 0

omit [Scalar R] in
/-- None of it changes while the simulation is used. -/
theorem Simulation.Equipped.congr {sim sim' : Simulation R} (h : sim.Equipped)
    (hparts : (sim'.router, sim'.dispatcher, sim'.planner) =
      (sim.router, sim.dispatcher, sim.planner))
    (hclock : (sim'.clock.start, sim'.clock.stepSecs) = (sim.clock.start, sim.clock.stepSecs)) :
    sim'.Equipped := by
  obtain ⟨hrouter, hdispatcher, hplanner⟩ : sim'.router = sim.router ∧
      sim'.dispatcher = sim.dispatcher ∧ sim'.planner = sim.planner := by simpa using hparts
  obtain ⟨hstart, hstep⟩ := Prod.mk.inj hclock
  exact ⟨hrouter ▸ h.router, hdispatcher ▸ h.pickup, hdispatcher ▸ h.dropoff,
    by rw [hplanner, h.grid, hstart, hstep], hstep ▸ h.stepSecs⟩

/-- A scenario with new vehicles, which follow routes of least travel time. -/
structure Scenario.IsNew (scenario : Scenario R) : Prop where
  fleet : scenario.fleet.IsNew
  router : scenario.router = LeastTime.route

/-- A sequence that gives a result has a first part that gives one. -/
theorem exists_of_bind_ok {ε α β : Type} {x : Except ε α} {next : α → Except ε β} {b : β}
    (h : (x >>= next) = .ok b) : ∃ a, x = .ok a ∧ next a = .ok b := by
  cases x with
  | error e => cases h
  | ok a => exact ⟨a, rfl, h⟩

theorem of_mapError_ok {ε ε' α : Type} {wrap : ε → ε'} {x : Except ε α} {a : α}
    (h : x.mapError wrap = .ok a) : x = .ok a := by
  cases x <;> cases h
  rfl

omit [Scalar R] in
/-- Boarding and alighting take time. -/
theorem Dispatcher.make_ok {config : DispatchConfig} {policy : CandidatePolicy R}
    {dispatcher : Dispatcher R} (h : Dispatcher.make config policy = .ok dispatcher) :
    dispatcher.config = config ∧ config.pickupSecs ≠ 0 ∧ config.dropoffSecs ≠ 0 := by
  obtain ⟨_, hvalid, hmade⟩ := exists_of_bind_ok h
  cases hmade
  exact ⟨rfl, DispatchConfig.validate_ok hvalid⟩

/-- What a new simulation begins with. -/
structure Scenario.Begins (scenario : Scenario R) (sim : Simulation R) : Prop where
  equipped : sim.Equipped
  settings : sim.dispatcher.config = scenario.dispatch
  fleet : sim.fleet = scenario.fleet
  movements : sim.movements.length = sim.fleet.size
  chargers : sim.chargers.Distinct
  /-- All plugs are free. -/
  unplugged : ∀ id, sim.chargers.plugged id = []
  /-- No request has been submitted. -/
  requests : sim.requests = {}
  arrivals : sim.arrivals.Perm scenario.requests
  stats : sim.stats = .start

/-- A simulation is built from parts that fit together. -/
theorem Scenario.build_eq {scenario : Scenario R} {sim : Simulation R}
    (h : scenario.build = .ok sim) :
    ∃ (dispatcher : Dispatcher R) (planner : ChargingPlanner R) (chargers : ChargerPool R),
      scenario.checkConfig = .ok () ∧
      scenario.requests.forM (checkRequest scenario.network) = .ok () ∧
      Dispatcher.make scenario.dispatch scenario.policy = .ok dispatcher ∧
      ChargerPool.build scenario.chargers scenario.network = .ok chargers ∧
      sim =
        { config := scenario.config
          clock := scenario.config.clock
          network := scenario.network
          router := scenario.router
          dispatcher := dispatcher
          planner := planner.onGrid scenario.config.start scenario.config.stepSecs
          fleet := scenario.fleet
          movements := Movement.ofFleet scenario.fleet
          chargers := chargers
          requests := {}
          arrivals := scenario.requests.mergeSort fun a b => a.submitted ≤ b.submitted
          stats := .start } := by
  obtain ⟨_, hconfig, h⟩ := exists_of_bind_ok h
  obtain ⟨_, -, h⟩ := exists_of_bind_ok h
  obtain ⟨_, hrequests, h⟩ := exists_of_bind_ok h
  obtain ⟨dispatcher, hdispatcher, h⟩ := exists_of_bind_ok h
  obtain ⟨planner, -, h⟩ := exists_of_bind_ok h
  obtain ⟨chargers, hchargers, h⟩ := exists_of_bind_ok h
  exact ⟨dispatcher, planner, chargers, hconfig, of_mapError_ok hrequests,
    of_mapError_ok hdispatcher, of_mapError_ok hchargers, (Except.ok.inj h).symm⟩

theorem Scenario.build_ok {scenario : Scenario R} {sim : Simulation R} (hnew : scenario.IsNew)
    (h : scenario.build = .ok sim) : scenario.Begins sim := by
  obtain ⟨dispatcher, planner, chargers, hconfig, -, hdispatcher, hchargers, rfl⟩ := build_eq h
  obtain ⟨hdistinct, hplugged⟩ := ChargerPool.build_ok hchargers
  obtain ⟨hsame, hpickup, hdropoff⟩ := Dispatcher.make_ok hdispatcher
  have hrouter : scenario.router.Sound := hnew.router ▸ LeastTime.route_sound
  have hstep : scenario.config.stepSecs ≠ 0 := fun hzero => by simp [checkConfig, hzero] at hconfig
  exact ⟨⟨hrouter, by rwa [hsame], by rwa [hsame], rfl, hstep⟩, hsame, rfl,
    by simp [Movement.ofFleet, Fleet.size], hdistinct, hplugged, rfl, List.mergeSort_perm _ _, rfl⟩

/-! ## A small scenario -/

/-- Two stops, a minute's drive apart in either direction. -/
def Network.twoStops : Network Rat :=
  ⟨#[⟨0, 0⟩, ⟨0, 0⟩], #[⟨⟨0⟩, ⟨1⟩, 1000, 60000⟩, ⟨⟨1⟩, ⟨0⟩, 1000, 60000⟩], #[0, 1, 2], by decide,
    by decide⟩

/-- Two electric vehicles with little charge at one stop. -/
def Fleet.twoVehicles : Fleet Rat :=
  let profile : EnergyProfile Rat := ⟨10, ⟨"flat", ⟨0, 1⟩, ⟨0, 1⟩, ⟨1, 1⟩, ⟨1, 1⟩⟩, 0, 0⟩
  let plan : VehiclePlan Rat := ⟨⟨0⟩, 1, some (profile, 1)⟩
  (Fleet.ofPlans .zero (.ofSecs 9000) [plan, plan]).toOption.getD ⟨[]⟩

/-- The vehicles at one stop share the plug at the other one. -/
def Scenario.twoStops : Scenario Rat where
  config := { finish := .ofSecs 9000, stepSecs := 700, dispatchInterval := 1 }
  network := .twoStops
  router := LeastTime.route
  fleet := .twoVehicles
  chargers := [⟨⟨0⟩, .node ⟨1⟩, 10, 1⟩]
  charging := .usual
  policy := .allVehicles

theorem Scenario.twoStops_isNew : twoStops.IsNew := by
  refine ⟨?_, rfl⟩
  change Fleet.twoVehicles.IsNew
  unfold Fleet.twoVehicles
  exact Fleet.ofPlans_getD_isNew _ _ _

theorem Scenario.exists_twoStops_build : ∃ sim, twoStops.build = .ok sim := by
  have hok : twoStops.build.isOk = true := by decide +kernel
  cases hbuild : twoStops.build with
  | error e => simp [hbuild, Except.isOk, Except.toBool] at hok
  | ok sim => exact ⟨sim, rfl⟩

end DemandTransport
