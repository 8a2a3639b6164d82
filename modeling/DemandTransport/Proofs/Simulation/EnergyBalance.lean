import DemandTransport.Proofs.Execution.Metering
import DemandTransport.Proofs.Simulation.Feasibility

/-!
# The energy of a run balances

A run adds up the energy that batteries have taken and given from the events that it is told, and
never looks at a battery. Over the rational numbers nothing is lost on the way: what has been
charged, less what has been used, is what the batteries of all electric vehicles have gained since
the begin, whether or not they were full or empty in between, and whatever was given up, planned,
withdrawn or refused.
-/

namespace DemandTransport

variable {ω : Type}

/-! ## What is added up -/

namespace RunStats

/-- What the batteries have gained, as far as it has been counted. -/
def gained (stats : RunStats Rat) : Rat := stats.energyCharged - stats.energyUsed

/-- Boarding, alighting and charging are counted apart from the energy. -/
theorem recordActivity_energy {R : Type} (stats : RunStats R) (phase : TaskPhase)
    (activity : Activity) :
    (stats.recordActivity phase activity).energyCharged = stats.energyCharged ∧
      (stats.recordActivity phase activity).energyUsed = stats.energyUsed := by
  unfold recordActivity
  split <;> exact ⟨rfl, rfl⟩

/-- A change of charge is added to one of the totals, which never decrease. -/
theorem recordEnergy_gained (stats : RunStats Rat) (kwh : Rat) :
    (stats.recordEnergy kwh).gained = stats.gained + kwh ∧
      stats.energyCharged ≤ (stats.recordEnergy kwh).energyCharged ∧
      stats.energyUsed ≤ (stats.recordEnergy kwh).energyUsed := by
  unfold recordEnergy gained
  split
  next hcharged =>
    refine ⟨?_, ?_, le_refl _⟩
    · dsimp only
      ring
    · dsimp only
      linarith
  next hused =>
    refine ⟨?_, le_refl _, ?_⟩
    · dsimp only
      ring
    · dsimp only
      linarith

/-- An event is counted with the change of charge that it tells. -/
theorem recordEvent_gained (stats : RunStats Rat) (event : TaskEvent Rat) :
    (stats.recordEvent event).gained = stats.gained + event.energy.getD 0 ∧
      stats.energyCharged ≤ (stats.recordEvent event).energyCharged ∧
      stats.energyUsed ≤ (stats.recordEvent event).energyUsed := by
  obtain ⟨hcharged, hused⟩ := stats.recordActivity_energy event.phase event.activity
  have hsame : (stats.recordActivity event.phase event.activity).gained = stats.gained := by
    rw [gained, hcharged, hused, gained]
  unfold recordEvent
  cases event.energy with
  | none => exact ⟨by rw [hsame, Option.getD_none, add_zero], hcharged.ge, hused.ge⟩
  | some kwh =>
    have hrecorded := (stats.recordActivity event.phase event.activity).recordEnergy_gained kwh
    rw [hsame, hcharged, hused] at hrecorded
    exact hrecorded

/-- The totals of energy agree with what the batteries of some vehicles have gained since they were
in a certain state. -/
structure Balances (stats : RunStats Rat) (before : List (VehicleId × Battery Rat))
    (vehicles : List (Vehicle Rat)) : Prop where
  charged : 0 ≤ stats.energyCharged
  used : 0 ≤ stats.energyUsed
  metered : Metered before (batteries vehicles) stats.gained

namespace Balances

variable {stats stats' : RunStats Rat} {before : List (VehicleId × Battery Rat)}
  {vehicles vehicles' : List (Vehicle Rat)}

/-- Other counts and other plans do not matter. -/
theorem congr (h : stats.Balances before vehicles)
    (hcharged : stats'.energyCharged = stats.energyCharged)
    (hused : stats'.energyUsed = stats.energyUsed)
    (hbatteries : batteries vehicles' = batteries vehicles) : stats'.Balances before vehicles' := by
  refine ⟨hcharged ▸ h.charged, hused ▸ h.used, ?_⟩
  rw [hbatteries, gained, hcharged, hused]
  exact h.metered

/-- The event of a beat is counted with what the battery has gained. -/
theorem beat {a b : List (Vehicle Rat)} {now : Time} {v v' : Vehicle Rat}
    {pool pool' : ChargerPool Rat} {event : TaskEvent Rat} (h : stats.Balances before (a ++ v :: b))
    (hbeat : Beat now v pool event v' pool') :
    (stats.recordEvent event).Balances before (a ++ v' :: b) := by
  obtain ⟨hgained, hcharged, hused⟩ := stats.recordEvent_gained event
  refine ⟨h.charged.trans hcharged, h.used.trans hused, ?_⟩
  rw [hgained]
  exact h.metered.beat hbeat

end Balances

end RunStats

/-! ## Dispatching -/

namespace Operation

variable {ctx : DispatchContext Rat} {planner : ChargingPlanner Rat} {pool : ChargerPool Rat}
  {coming : List RequestId} {op op' : Operation Rat}

/-- A move leaves every battery alone. -/
theorem Moves.batteries_eq (hmove : op.Moves ctx planner pool op') (h : op.Agrees coming pool) :
    batteries op'.fleet.vehicles = batteries op.fleet.vehicles := by
  cases hmove with
  | cancel => rfl
  | trip _ _ vehicle evaluated committed _ =>
    have hvalid := (h.split vehicle).roster.valid_at
    have hreplanned : Vehicle.Replanned planner.grid [] _ _ :=
      (Vehicle.commit_replanned hvalid evaluated).of_ok committed
    rw [vehicle]
    exact batteries_replanned hreplanned
  | session vehicle found inserted =>
    have hvalid := (h.split vehicle).roster.valid_at
    have hreplanned : Vehicle.Replanned planner.grid _ _ _ :=
      (Vehicle.insertAt_replanned hvalid (ChargingPlanner.session_books found).2).of_ok inserted
    rw [vehicle]
    exact batteries_replanned hreplanned

/-- So does a whole sequence of moves. -/
theorem batteries_of_moves (hmoves : Relation.ReflTransGen (Moves ctx planner pool) op op')
    (hctx : Dispatcher.Ready ctx.config ctx.router) (h : op.Agrees coming pool) :
    batteries op'.fleet.vehicles = batteries op.fleet.vehicles :=
  keeps_of_moves (P := fun mid => batteries mid.fleet.vehicles = batteries op.fleet.vehicles)
    (fun hmove hagree hsame => (hmove.batteries_eq hagree).trans hsame) hmoves hctx h rfl

end Operation

/-! ## In the course of a run -/

/-- The totals of energy of a simulation agree with what the batteries have gained. -/
def Simulation.Balanced (before : List (VehicleId × Battery Rat)) (sim : Simulation Rat) : Prop :=
  sim.stats.Balances before sim.fleet.vehicles

namespace Simulation.Balanced

variable {sim : Simulation Rat} {before : List (VehicleId × Battery Rat)}

/-- Beats keep vehicles and registry in agreement, and what they tell adds up to what the batteries
gain. -/
theorem steady (now : Time) :
    Steady now
      (fun (stats : RunStats Rat) event => (pure (stats.recordEvent event) : Except Empty _))
      fun vehicles pool stats =>
        (∃ requests, Agreement [] vehicles pool requests) ∧ stats.Balances before vehicles where
  ready h := by
    obtain ⟨_, hagree⟩ := h.1
    exact (InOrder.steady now).ready hagree
  beat h hbeat := by
    obtain ⟨_, hagree⟩ := h.1
    obtain ⟨requests', -, hagree'⟩ := (InOrder.steady now).beat hagree hbeat
    exact ⟨_, rfl, ⟨requests', hagree'⟩, h.2.beat hbeat⟩

/-- When schedules are executed and what has happened is noted, the totals follow the batteries. -/
theorem execute (h : sim.Balanced before) (horder : sim.InOrder []) :
    (Simulation.execute sim.now).Ends sim
      (fun events s => (Simulation.apply events).Ends s (fun _ t => t.Balanced before)
        fun _ _ => False)
      fun _ _ => False := by
  have hmeters := execute_ends (steady sim.now) horder.movements
    ⟨⟨sim.requests, horder.agreement⟩, h⟩
  refine (horder.execute.and hmeters).mono ?_ fun _ _ hfail => hfail.1
  rintro events s ⟨happly, fleet, movements, chargers, counted, rfl, -, -, hcounted, -, hbalances⟩
  rw [List.foldlM_pure] at hcounted
  cases hcounted
  refine (happly.and (apply_fleet.and apply_stats)).mono ?_ fun _ _ hfail => hfail.1
  rintro - t ⟨-, hfleet, hstats⟩
  rw [Balanced, hfleet, hstats]
  exact hbalances

/-- A dispatch cycle charges nothing and uses nothing. -/
theorem dispatch (h : sim.Balanced before) (horder : sim.InOrder []) :
    dispatchCycle.Ends sim (fun _ s => s.Balanced before) fun _ _ => False := by
  have hcounts := @dispatchCycle_ends Rat _ sim (fun _ _ _ => True) (fun _ _ => True)
    (.of_forall (fun _ _ => .of_forall (fun _ _ => trivial) fun _ _ => trivial) fun _ _ => trivial)
  refine (horder.dispatch_moves.and hcounts).mono ?_ fun _ _ hfail => hfail.1
  rintro report s ⟨⟨op, stats, hmoves, rfl⟩, fleet, requests, -, hs⟩
  have hstats : stats = sim.stats.recordDispatch report := congrArg Simulation.stats hs
  have hsame := Operation.batteries_of_moves hmoves horder.equipped.ready horder.agreement
  rw [hstats]
  exact h.congr rfl rfl hsame

/-- Nor does the withdrawal of a request. -/
theorem withdraw (h : sim.Balanced before) (horder : sim.InOrder []) (id : RequestId)
    (why : String) :
    (Simulation.withdraw id why).Ends sim (fun _ s => s.Balanced before)
      fun _ s => s.Balanced before := by
  refine (horder.withdraw_ends id why).mono ?_ fun _ s hs => by rw [hs.2]; exact h
  rintro - s ⟨-, entry, fleet, requests, -, -, htakes, -, rfl⟩
  refine h.congr rfl rfl ?_
  cases htakes with
  | unplanned => rfl
  | @planned a b v v' _ hsplit _ hretract _ =>
    rw [hsplit]
    exact batteries_replanned ((@Vehicle.retract_replanned Rat {} _ v id).of_ok hretract)

/-- Registering a request is counted apart from the energy. -/
theorem release (h : sim.Balanced before) (request : Request) :
    (Simulation.release request).Ends sim (fun _ s => s.Balanced before)
      fun _ s => s.Balanced before :=
  release_ends (fun _ _ => h.congr rfl rfl rfl) fun _ _ => h

/-- Every step keeps the totals of energy balanced, even if it fails. -/
theorem phased (before : List (VehicleId × Battery Rat)) :
    Phased (fun sim => sim.InOrder [] ∧ sim.Balanced before)
      (fun sim => sim.InOrder [] ∧ sim.Balanced before)
      (fun sim => sim.InOrder [] ∧ sim.Balanced before) fun _ => True := by
  refine InOrder.phased.with_kept ?_ ?_ ?_ ?_
  · intro sim _ _ h
    refine releaseDue_ends (Q := fun _ s => s.Balanced before) (fun request rest s hs _ => ?_)
      (fun _ _ _ hs => hs) h
    have hrest : Balanced before { s with arrivals := rest } := hs
    exact hrest.release request
  · intro sim _ horder h
    exact (h.execute horder).of_no_failure.mono (fun _ _ hs => hs.of_no_failure)
      fun _ _ hfail => hfail
  · exact fun sim _ horder h => (h.dispatch horder).of_no_failure
  · intro sim _ _ h
    simp only [Simulation.tick, count, Action.ends_bind, Action.ends_modify]
    exact h.congr rfl rfl rfl

/-- So does every call. -/
theorem lasting (before : List (VehicleId × Battery Rat)) :
    Lasting (fun sim => sim.InOrder [] ∧ sim.Balanced before)
      (fun sim => sim.InOrder [] ∧ sim.Balanced before) fun _ => True :=
  InOrder.lasting.with_kept (phased before)
    (fun request _ _ _ h => submit_ends (fun _ => h.release request) (h.congr rfl rfl rfl) h)
    (fun id why _ _ horder h => h.withdraw horder id why)
    fun _ _ horder h => (h.dispatch horder).of_no_failure

/-- In a new simulation no energy has been charged or used. -/
theorem of_build {scenario : Scenario Rat} (hnew : scenario.IsNew)
    (hbuild : scenario.build = .ok sim) : sim.Balanced (batteries scenario.fleet.vehicles) := by
  have hbegins := scenario.build_ok hnew hbuild
  rw [Balanced, hbegins.stats, hbegins.fleet]
  refine ⟨le_refl _, le_refl _, ?_⟩
  have hnothing : (RunStats.start : RunStats Rat).gained = 0 := sub_self 0
  rw [hnothing]
  refine .start fun entry hentry => ?_
  obtain ⟨v, hv, energy, henergy, rfl⟩ := mem_batteries.mp hentry
  exact (hnew.fleet.vehicles v hv).inRange energy henergy

end Simulation.Balanced

namespace Simulation

variable {sim : Simulation Rat}

/-- After any calls to a new simulation, made or refused, with all energies exact: the electric
vehicles are the ones of the begin with batteries of the same capacities, the energy charged less
the energy used is the sum of what each of these batteries holds more than at the begin, neither
total is negative, and no battery holds less than nothing or more than its capacity. -/
theorem energy_balances {scenario : Scenario Rat} (hnew : scenario.IsNew)
    (hhorizon : ∀ v ∈ scenario.fleet.vehicles, v.finish < .last)
    (hbuild : scenario.build = .ok sim) (observer : Observer Rat ω) (memory : ω)
    (calls : List Call) :
    let reached := (Call.performAll observer calls ⟨sim, memory⟩).sim
    let before := batteries scenario.fleet.vehicles
    let after := batteries reached.fleet.vehicles
    (after.map fun entry => (entry.1, entry.2.capacity)) =
        before.map (fun entry => (entry.1, entry.2.capacity)) ∧
      reached.stats.energyCharged - reached.stats.energyUsed = (chargeGains before after).sum ∧
      0 ≤ reached.stats.energyCharged ∧ 0 ≤ reached.stats.energyUsed ∧
      ∀ entry ∈ after, 0 ≤ entry.2.charge ∧ entry.2.charge ≤ entry.2.capacity := by
  intro reached before after
  have hstart : sim.InOrder [] ∧ sim.Balanced before :=
    ⟨.of_build hnew hhorizon hbuild [], .of_build hnew hbuild⟩
  have hends : reached.InOrder [] ∧ reached.Balanced before :=
    (Balanced.lasting before).performAll hstart calls trivial
  have hbalances := hends.2
  have hmetered := hbalances.metered
  exact ⟨hmetered.same, hmetered.sum_gains.symm, hbalances.charged, hbalances.used,
    hmetered.inRange⟩

end Simulation

/-- A vehicle without a battery and an electric one that draws power whether it drives or waits. -/
def Fleet.mixedPair : Fleet Rat :=
  let profile : EnergyProfile Rat := ⟨10, ⟨"flat", ⟨0, 1⟩, ⟨0, 1⟩, ⟨1, 1⟩, ⟨1, 1⟩⟩, 1, 1⟩
  let plans : List (VehiclePlan Rat) := [⟨⟨0⟩, 1, none⟩, ⟨⟨0⟩, 1, some (profile, 3)⟩]
  (Fleet.ofPlans .zero (.ofSecs 9000) plans).toOption.getD ⟨[]⟩

/-- Two such vehicles where there is a plug at the other stop. -/
def Scenario.mixedPair : Scenario Rat := { Scenario.twoStops with fleet := .mixedPair }

/-- The electric vehicle draws 13/6 kWh and charges 43/6 kWh, so it holds 5 kWh more than before. -/
theorem Simulation.energy_balances_mixedPair :
    ∃ sim, Scenario.mixedPair.build = .ok sim ∧
      let reached := (Call.performAll .quiet [.runSteps 12] ⟨sim, ()⟩).sim
      reached.stats.energyCharged = 43 / 6 ∧ reached.stats.energyUsed = 13 / 6 ∧
      reached.stats.energyCharged - reached.stats.energyUsed =
        (chargeGains (batteries Scenario.mixedPair.fleet.vehicles)
          (batteries reached.fleet.vehicles)).sum ∧
      batteries reached.fleet.vehicles = [(⟨1⟩, ⟨10, 8⟩)] := by
  have hfleet : Fleet.mixedPair.IsNew := by
    unfold Fleet.mixedPair
    exact Fleet.ofPlans_getD_isNew _ _ _
  have hnew : Scenario.mixedPair.IsNew := ⟨hfleet, rfl⟩
  have hhorizon : ∀ v ∈ Scenario.mixedPair.fleet.vehicles, v.finish < .last := by decide +kernel
  have hreached : Scenario.mixedPair.build.toOption.map (fun sim =>
      let reached := (Call.performAll .quiet [.runSteps 12] ⟨sim, ()⟩).sim
      (reached.stats.energyCharged, reached.stats.energyUsed, batteries reached.fleet.vehicles)) =
        some (43 / 6, 13 / 6, [(⟨1⟩, ⟨10, 8⟩)]) := by
    decide +kernel
  cases hbuild : Scenario.mixedPair.build with
  | error e => simp [hbuild, Except.toOption] at hreached
  | ok sim =>
    rw [hbuild] at hreached
    obtain ⟨hcharged, hrest⟩ := Prod.mk.inj (Option.some.inj hreached)
    obtain ⟨hused, hbatteries⟩ := Prod.mk.inj hrest
    have hbalances := energy_balances hnew hhorizon hbuild .quiet () [.runSteps 12]
    exact ⟨sim, rfl, hcharged, hused, hbalances.2.1, hbatteries⟩

end DemandTransport
