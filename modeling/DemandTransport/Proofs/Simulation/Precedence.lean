import DemandTransport.Proofs.Dispatch.Queueing
import DemandTransport.Proofs.Simulation.Arrivals
import DemandTransport.Proofs.Simulation.Calls

/-!
# First come, first served

Requests get into the registry in two ways. Those that are known in advance or submitted ahead of
their time queue up in the order of their submission, and each step registers those that are due. A
request that is due when it is submitted is registered at once. So a request is registered before
those that are given later and are not submitted earlier, unless one of them is submitted while it
is due and the first request, though it may be due as well, is still to come: then the later one is
registered first.
-/

namespace DemandTransport

variable {R ω : Type} [Scalar R]

/-! ## Two requests -/

/-- A request begins and ends at nodes of a network. -/
def Network.Serves (network : Network R) (request : Request) : Prop :=
  (Scenario.checkRequest network request).isOk = true

instance {network : Network R} {request : Request} : Decidable (network.Serves request) :=
  inferInstanceAs (Decidable (_ = _))

omit [Scalar R] in
/-- A network serves all requests that have been checked. -/
theorem Network.serves_of_forM {network : Network R} {requests : List Request}
    (h : requests.forM (Scenario.checkRequest network) = .ok ()) :
    ∀ request ∈ requests, network.Serves request := by
  induction requests with
  | nil => simp
  | cons first rest ih =>
    obtain ⟨_, hfirst, hrest⟩ := exists_of_bind_ok h
    refine List.forall_mem_cons.mpr ⟨?_, ih hrest⟩
    rw [Serves, hfirst]
    rfl

/-- Two requests in the course of a run, with the requests given to it so far, those of them that
are still to come, and the registry: as long as the first one can be registered, it comes before the
other one. -/
structure Precedes (a b : Request) (network : Network R) (given arrivals : List Request)
    (registry : Registry) : Prop where
  sound : registry.Sound
  inTurn : Simulation.InTurn arrivals
  /-- What is to come has been given, and the network serves it. -/
  coming : ∀ request ∈ arrivals, request ∈ given ∧ network.Serves request
  /-- What is registered has been given. -/
  registered : ∀ request, registry.Has request → request ∈ given
  /-- The second request is not registered while the first one can be, and stands behind it. -/
  ahead : a ∈ given → network.Serves a → registry.Admits a →
    ¬registry.Has b ∧ a.ComesBefore b arrivals
  /-- When both are registered, they wait in this order. -/
  waits : registry.Has a → registry.Has b → registry.pending.Pairwise fun x y =>
    x = b.id → y ≠ a.id

/-- A request that is accepted waits behind the others, so that two requests of which the second one
is not registered before the first one wait in this order. -/
theorem Registry.Accepts.waits {registry registry' : Registry} {a b c : Request}
    (h : registry.Accepts registry' c) (hsound : registry.Sound)
    (hwaits : registry.Has a → registry.Has b → registry.pending.Pairwise fun x y =>
      x = b.id → y ≠ a.id)
    (hahead : c = a → ¬registry.Has b) (ha : registry'.Has a) (hb : registry'.Has b) :
    registry'.pending.Pairwise fun x y => x = b.id → y ≠ a.id := by
  rw [h.pending, List.pairwise_append]
  rcases h.has_iff.mp hb with rfl | hb
  · have hnew : ∀ x ∈ registry.pending, x ≠ b.id := by
      rintro x hx rfl
      obtain ⟨entry, hentry, -⟩ := hsound.find_pending hx
      have hnone := request?_eq_none.mp h.new
      rw [hentry] at hnone
      cases hnone
    refine ⟨?_, by simp, fun x hx _ _ heq => (hnew x hx heq).elim⟩
    exact List.pairwise_of_forall_mem_list fun x hx _ _ heq => (hnew x hx heq).elim
  · have ha : registry.Has a := (h.has_iff.mp ha).resolve_left fun heq => hahead heq.symm hb
    refine ⟨hwaits ha hb, by simp, fun x _ y hy _ => ?_⟩
    rw [List.mem_singleton.mp hy]
    exact (h.id_ne ha).symm

namespace Precedes

variable {a b c : Request} {network : Network R} {given arrivals : List Request}
  {registry registry' : Registry}

omit [Scalar R]

/-- Nothing changes when requests leave the queue of the registry. -/
theorem follow (h : Precedes a b network given arrivals registry)
    (hfollows : registry.Follows registry') : Precedes a b network given arrivals registry' where
  sound := hfollows.sound
  inTurn := h.inTurn
  coming := h.coming
  registered request hrequest := h.registered request (hfollows.has_iff.mp hrequest)
  ahead hgiven hserves hadmits := by
    rw [hfollows.has_iff]
    exact h.ahead hgiven hserves (hfollows.admits_iff.mp hadmits)
  waits ha hb :=
    (h.waits (hfollows.has_iff.mp ha) (hfollows.has_iff.mp hb)).sublist hfollows.pending

/-- The request at the front of the queue is registered. -/
theorem release (h : Precedes a b network given (c :: arrivals) registry)
    (haccepts : registry.Accepts registry' c) :
    Precedes a b network given arrivals registry' where
  sound := haccepts.sound
  inTurn := (List.pairwise_cons.mp h.inTurn).2
  coming request hrequest := h.coming request (List.mem_cons_of_mem c hrequest)
  registered request hrequest := by
    rcases haccepts.has_iff.mp hrequest with rfl | hhas
    · exact (h.coming request List.mem_cons_self).1
    · exact h.registered request hhas
  ahead hgiven hserves hadmits := by
    obtain ⟨hadmitted, hother⟩ := haccepts.admits hadmits
    obtain ⟨hnot, hfirst⟩ := h.ahead hgiven hserves hadmitted
    obtain ⟨hc, hbefore⟩ := Request.comesBefore_cons.mp hfirst
    refine ⟨fun hb => ?_, hbefore.resolve_left hother⟩
    exact (haccepts.has_iff.mp hb).elim (fun heq => hc heq.symm) hnot
  waits := by
    refine haccepts.waits h.sound h.waits ?_
    rintro rfl
    obtain ⟨hgiven, hserves⟩ := h.coming c List.mem_cons_self
    exact (h.ahead hgiven hserves haccepts.admitted).1

/-- The request at the front of the queue is refused. -/
theorem refuse (h : Precedes a b network given (c :: arrivals) registry)
    (hrefused : ¬registry.Admits c) : Precedes a b network given arrivals registry where
  sound := h.sound
  inTurn := (List.pairwise_cons.mp h.inTurn).2
  coming request hrequest := h.coming request (List.mem_cons_of_mem c hrequest)
  registered := h.registered
  ahead hgiven hserves hadmits := by
    obtain ⟨hnot, hfirst⟩ := h.ahead hgiven hserves hadmits
    have hother : a ≠ c := fun heq => hrefused (heq ▸ hadmits)
    exact ⟨hnot, (Request.comesBefore_cons.mp hfirst).2.resolve_left hother⟩
  waits := h.waits

/-! ### Requests that are given to the run -/

variable (h : Precedes a b network given arrivals registry) (hgiven : b ∈ given → a ∈ given)
include h hgiven

/-- Before the first request is given, nothing is known of the second one. -/
theorem unknown (ha : a ∉ given) : ¬registry.Has b ∧ b ∉ arrivals :=
  ⟨fun hb => ha (hgiven (h.registered b hb)), fun hb => ha (hgiven (h.coming b hb).1)⟩

/-- A request joins the queue. -/
theorem enqueue (hserves : network.Serves c) (hne : a ≠ b)
    (hsubmitted : a.submitted ≤ b.submitted) :
    Precedes a b network (given ++ [c]) (Simulation.enqueue c arrivals) registry where
  sound := h.sound
  inTurn := h.inTurn.enqueue
  coming request hrequest := by
    rcases List.mem_cons.mp ((Simulation.enqueue_perm c arrivals).mem_iff.mpr hrequest) with
      rfl | hold
    · exact ⟨by simp, hserves⟩
    · exact (h.coming request hold).imp_left (List.mem_append_left _)
  registered request hrequest := List.mem_append_left _ (h.registered request hrequest)
  ahead hmem hservesA hadmits := by
    by_cases ha : a ∈ given
    · obtain ⟨hnot, hfirst⟩ := h.ahead ha hservesA hadmits
      exact ⟨hnot, Simulation.comesBefore_enqueue h.inTurn hfirst hsubmitted⟩
    · obtain ⟨hnot, hcoming⟩ := h.unknown hgiven ha
      obtain rfl : a = c := by simpa [ha] using hmem
      have hperm := Simulation.enqueue_perm a arrivals
      refine ⟨hnot, .of_not_mem (hperm.mem_iff.mp List.mem_cons_self) fun hb => ?_⟩
      exact (List.mem_cons.mp (hperm.mem_iff.mpr hb)).elim (fun heq => hne heq.symm) hcoming
  waits := h.waits

/-- A request is registered at once, but not the second one while the first one is still to come. -/
theorem register (hserves : network.Serves c) (hturn : c = b → a ∉ arrivals)
    (haccepts : registry.Accepts registry' c) :
    Precedes a b network (given ++ [c]) arrivals registry' where
  sound := haccepts.sound
  inTurn := h.inTurn
  coming request hrequest := (h.coming request hrequest).imp_left (List.mem_append_left _)
  registered request hrequest := by
    rcases haccepts.has_iff.mp hrequest with rfl | hhas
    · simp
    · exact List.mem_append_left _ (h.registered request hhas)
  ahead hmem hservesA hadmits := by
    obtain ⟨hadmitted, hother⟩ := haccepts.admits hadmits
    have ha : a ∈ given := by simpa [hother] using hmem
    obtain ⟨hnot, hfirst⟩ := h.ahead ha hservesA hadmitted
    refine ⟨fun hb => ?_, hfirst⟩
    rcases haccepts.has_iff.mp hb with rfl | hb
    · exact hturn rfl hfirst.mem
    · exact hnot hb
  waits := by
    refine haccepts.waits h.sound h.waits ?_
    rintro rfl
    by_cases ha : c ∈ given
    · exact (h.ahead ha hserves haccepts.admitted).1
    · exact (h.unknown hgiven ha).1

omit hgiven in
/-- A request is rejected. -/
theorem reject (hrejected : network.Serves c → ¬registry.Admits c) :
    Precedes a b network (given ++ [c]) arrivals registry where
  sound := h.sound
  inTurn := h.inTurn
  coming request hrequest := (h.coming request hrequest).imp_left (List.mem_append_left _)
  registered request hrequest := List.mem_append_left _ (h.registered request hrequest)
  ahead hmem hserves hadmits := by
    have hother : a ≠ c := fun heq => hrejected (heq ▸ hserves) (heq ▸ hadmits)
    exact h.ahead (by simpa [hother] using hmem) hserves hadmits
  waits := h.waits

end Precedes

/-! ## In the course of a run -/

namespace Simulation

variable {sim sim' : Simulation R}

/-- A later state of a simulation to which no request has been added. -/
structure Follows (sim sim' : Simulation R) : Prop where
  network : sim'.network = sim.network
  arrivals : sim'.arrivals = sim.arrivals
  requests : sim.requests.Follows sim'.requests

omit [Scalar R] in
theorem Follows.trans {sim'' : Simulation R} (h : sim.Follows sim') (h' : sim'.Follows sim'') :
    sim.Follows sim'' :=
  ⟨h'.network.trans h.network, h'.arrivals.trans h.arrivals, h.requests.trans h'.requests⟩

omit [Scalar R] in
theorem registryChange_follows {event : TaskEvent R} {registry registry' : Registry}
    (h : registry.Sound) (hok : registryChange event registry = .ok registry') :
    registry.Follows registry' := by
  unfold registryChange at hok
  split at hok
  · obtain ⟨_, hturns⟩ := h.markPickedUp_ok hok
    exact hturns.follows
  · obtain ⟨_, hturns⟩ := h.markPerformed_ok hok
    exact hturns.follows
  · cases hok
    exact h.follows

theorem apply_follows {events : List (TaskEvent R)} (h : sim.requests.Sound) :
    (apply events).Ends sim (fun _ s => sim.Follows s) fun _ s => sim.Follows s := by
  have hevent (s : Simulation R) (event : TaskEvent R) (requests : Registry) (_ : True)
      (hchanged : registryChange event s.requests = .ok requests) (hs : sim.Follows s) :
      sim.Follows { s with requests := requests, stats := s.stats.recordEvent event } :=
    ⟨hs.network, hs.arrivals,
      hs.requests.trans (registryChange_follows hs.requests.sound hchanged)⟩
  exact apply_keeps hevent (fun _ _ => trivial) ⟨rfl, rfl, h.follows⟩

/-- Executing the schedules and noting what has happened adds no request. -/
theorem execute_follows {now : Time} (h : sim.requests.Sound) :
    (execute now).Ends sim
      (fun events s => (apply events).Ends s (fun _ t => sim.Follows t) fun _ t => sim.Follows t)
      fun _ s => sim.Follows s := by
  simp only [execute, Action.ends_mapError, Action.ends_within]
  refine .of_forall (fun events state => ?_) fun _ _ => ⟨rfl, rfl, h.follows⟩
  let executed : Simulation R :=
    { sim with fleet := state.fleet, movements := state.movements, chargers := state.chargers }
  have hexecuted : sim.Follows executed := ⟨rfl, rfl, h.follows⟩
  exact (apply_follows hexecuted.requests.sound).mono (fun _ _ hs => hexecuted.trans hs)
    fun _ _ hs => hexecuted.trans hs

/-- A dispatch cycle plans requests in the order in which they wait. -/
theorem dispatchCycle_follows (h : sim.requests.Sound) :
    dispatchCycle.Ends sim
      (fun report s =>
        (report.planned.map Assignment.request).Sublist sim.requests.pending ∧ sim.Follows s)
      fun _ s => sim.Follows s := by
  simp only [dispatchCycle, onOperation, Operation.onFleet, count, Action.ends_bind,
    Action.ends_get, Action.ends_mapError, Action.ends_within, Action.ends_modify, Action.ends_pure]
  refine (Dispatcher.runCycle_follows h).mono ?_ fun _ op hop => ⟨rfl, rfl, hop⟩
  rintro report op ⟨hplanned, hop⟩
  exact .of_forall (fun _ _ => ⟨hplanned, rfl, rfl, hop⟩) fun _ _ => ⟨rfl, rfl, hop⟩

theorem retract_follows {vehicle : VehicleId} {id : RequestId} (h : sim.requests.Sound) :
    (retract vehicle id).Ends sim (fun _ s => sim.Follows s) fun _ s => sim.Follows s := by
  unfold Action.Ends retract
  cases sim.vehicle vehicle with
  | error e => exact ⟨rfl, rfl, h.follows⟩
  | ok v =>
    dsimp only
    cases Vehicle.retract id v with
    | ok _ v' => exact ⟨rfl, rfl, h.follows⟩
    | error e v' => exact ⟨rfl, rfl, h.follows⟩

omit [Scalar R] in
/-- The last part of a withdrawal, in which the request is cancelled and counted. -/
theorem cancel_follows {id : RequestId} {reason : CancelReason} {t : Time}
    {change : RunStats R → RunStats R} (h : sim.requests.Sound) :
    (onRequests (R := R) (Registry.InPlace.markCancelled id reason t)).Ends sim
      (fun _ s => (count change).Ends s (fun _ s => sim.Follows s) fun _ s => sim.Follows s)
      fun _ s => sim.Follows s := by
  simp only [onRequests, count, Action.ends_mapError, Action.ends_within,
    Registry.InPlace.markCancelled_eq, Action.ends_change, Action.ends_modify]
  split
  next requests hmarked =>
    obtain ⟨_, hturns⟩ := h.markCancelled_ok hmarked
    exact ⟨rfl, rfl, hturns.follows⟩
  · exact ⟨rfl, rfl, h.follows⟩

theorem withdraw_follows {id : RequestId} {why : String} (h : sim.requests.Sound) :
    (withdraw id why).Ends sim (fun _ s => sim.Follows s) fun _ s => sim.Follows s := by
  have hsame : sim.Follows sim := ⟨rfl, rfl, h.follows⟩
  simp only [withdraw, Action.ends_bind, Action.ends_ask]
  split
  · split
    · simp only [Action.ends_bind, Action.ends_get]
      exact cancel_follows h
    · simp only [Action.ends_bind, Action.ends_get]
      refine (retract_follows h).mono (fun _ s hs => ?_) fun _ _ hs => hs
      exact (cancel_follows hs.requests.sound).mono
        (fun _ _ hcounted => hcounted.mono (fun _ _ ht => hs.trans ht) fun _ _ ht => hs.trans ht)
        fun _ _ ht => hs.trans ht
    · exact hsame
  · exact hsame

/-- In a simulation with these requests given so far, one request comes before another one. -/
def Prefers (a b : Request) (given : List Request) (sim : Simulation R) : Prop :=
  Precedes a b sim.network given sim.arrivals sim.requests

namespace Prefers

variable {a b c : Request} {given : List Request}

omit [Scalar R] in
theorem follow (h : sim.Prefers a b given) (hfollows : sim.Follows sim') :
    sim'.Prefers a b given := by
  rw [Prefers, hfollows.network, hfollows.arrivals]
  exact Precedes.follow h hfollows.requests

/-- A step registers what is due in the order of the queue. -/
theorem phased : Phased (Prefers (R := R) a b given) (Prefers a b given) (Prefers a b given)
    fun _ => True where
  release sim _ h := by
    refine releaseDue_ends
      (Q := fun arrivals s => Prefers a b given { s with arrivals := arrivals })
      (fun request rest s hs _ => ?_) (fun _ _ _ hs => hs) h
    refine release_ends (fun requests hsubmit => ?_) fun e hrefused => ?_
    · exact Precedes.release hs (hs.sound.accepts hsubmit)
    · exact Precedes.refuse hs (Registry.not_admits_of_error hrefused)
  execute sim _ h := by
    refine (execute_follows h.sound).mono (fun _ _ happly => ⟨fun _ _ => trivial, ?_⟩)
      fun _ _ hs => h.follow hs
    exact happly.mono (fun _ _ hs => h.follow hs) fun _ _ hs => h.follow hs
  dispatch sim _ h :=
    (dispatchCycle_follows h.sound).mono (fun _ _ hs => h.follow hs.2) fun _ _ hs => h.follow hs
  tick sim _ h := by
    simp only [Simulation.tick, count, Action.ends_bind, Action.ends_modify]
    exact h

omit [Scalar R] in
/-- A request is submitted, the second one not while it is due and the first one is to come. -/
theorem submit (h : sim.Prefers a b given) (hgiven : b ∈ given → a ∈ given) (hne : a ≠ b)
    (hsubmitted : a.submitted ≤ b.submitted)
    (hturn : c = b → b.submitted ≤ sim.now → a ∉ sim.arrivals) :
    (Simulation.submit c).Ends sim (fun _ s => s.Prefers a b (given ++ [c]))
      fun _ s => s.Prefers a b (given ++ [c]) := by
  simp only [Simulation.submit, Action.ends_bind, Action.ends_ask, Action.ends_get]
  cases hcheck : Scenario.checkRequest sim.network c with
  | error e =>
    refine Precedes.reject h fun hserves => ?_
    rw [Network.Serves, hcheck] at hserves
    cases hserves
  | ok _ =>
    have hserves : sim.network.Serves c := by
      rw [Network.Serves, hcheck]
      rfl
    dsimp only [Except.mapError]
    split
    next hdue =>
      refine release_ends (fun requests hsubmit => ?_) fun e hrefused => ?_
      · refine Precedes.register h hgiven hserves ?_ (h.sound.accepts hsubmit)
        rintro rfl
        exact hturn rfl hdue
      · exact Precedes.reject h fun _ => Registry.not_admits_of_error hrefused
    next => exact Precedes.enqueue h hgiven hserves hne hsubmitted

theorem perform {observer : Observer R ω} {state : Observed R ω} {call : Call}
    (h : state.sim.Prefers a b given) (hgiven : b ∈ given → a ∈ given) (hne : a ≠ b)
    (hsubmitted : a.submitted ≤ b.submitted)
    (hturn : call.submission? = some b → b.submitted ≤ state.sim.now → a ∉ state.sim.arrivals) :
    (call.perform observer).Ends state
      (fun _ s => s.sim.Prefers a b (given ++ call.submission?.toList))
      fun _ s => s.sim.Prefers a b (given ++ call.submission?.toList) := by
  cases call with
  | submit request =>
    rw [Call.perform, Observed.onSim_ends]
    exact h.submit hgiven hne hsubmitted fun heq => hturn (congrArg some heq)
  | withdraw id why =>
    rw [Call.perform, Observed.onSim_ends]
    simp only [Call.submission?, Option.toList_none, List.append_nil]
    exact (withdraw_follows h.sound).mono (fun _ _ hs => h.follow hs) fun _ _ hs => h.follow hs
  | runSteps steps =>
    simp only [Call.submission?, Option.toList_none, List.append_nil]
    exact Observed.runSteps_keeps phased h steps
  | dispatch =>
    rw [Call.perform, Action.ends_map, Observed.onSim_ends]
    simp only [Call.submission?, Option.toList_none, List.append_nil]
    exact (dispatchCycle_follows h.sound).mono (fun _ _ hs => h.follow hs.2)
      fun _ _ hs => h.follow hs

/-- Any calls, none of which submits the second request while it is due and the first one is to
come. -/
theorem performAll {observer : Observer R ω} {start : Observed R ω}
    (h : start.sim.Prefers a b given) (hne : a ≠ b) (hsubmitted : a.submitted ≤ b.submitted)
    {calls : List Call}
    (hgiven : ∀ done rest, calls = done ++ rest →
      b ∈ given ++ done.filterMap Call.submission? → a ∈ given ++ done.filterMap Call.submission?)
    (hturn : ∀ done rest, calls = done ++ .submit b :: rest →
      let s := (Call.performAll observer done start).sim
      b.submitted ≤ s.now → a ∉ s.arrivals) :
    (Call.performAll observer calls start).sim.Prefers a b
      (given ++ calls.filterMap Call.submission?) := by
  induction calls using List.reverseRecOn with
  | nil => simpa [Call.performAll] using h
  | append_singleton done call ih =>
    have hdone := ih (fun done' rest heq => hgiven done' (rest ++ [call]) (by simp [heq]))
      fun done' rest heq => hturn done' (rest ++ [call]) (by simp [heq])
    have hlast : call.submission? = some b →
        b.submitted ≤ (Call.performAll observer done start).sim.now →
        a ∉ (Call.performAll observer done start).sim.arrivals := by
      intro hcall
      cases call with
      | submit request =>
        cases hcall
        exact hturn done [] rfl
      | withdraw | runSteps | dispatch => cases hcall
    have hperform : (call.perform observer).Ends (Call.performAll observer done start) _ _ :=
      hdone.perform (hgiven done [call] rfl) hne hsubmitted hlast
    rw [List.filterMap_append, ← List.append_assoc]
    have hsingle : [call].filterMap Call.submission? = call.submission?.toList := by
      cases hcall : call.submission? <;> simp [hcall]
    rw [hsingle, Call.performAll, List.foldl_append]
    exact hperform.outcome

/-- A new simulation is given the requests of its scenario. -/
theorem of_build {scenario : Scenario R} (hbuild : scenario.build = .ok sim)
    (hfirst : a ∈ scenario.requests → a.ComesBefore b scenario.requests)
    (hsubmitted : a.submitted ≤ b.submitted) : sim.Prefers a b scenario.requests := by
  obtain ⟨dispatcher, planner, chargers, -, hchecked, -, -, rfl⟩ := Scenario.build_eq hbuild
  have hnone (request : Request) : ¬Registry.Has {} request := by
    simp [Registry.Has, Registry.request?, Registry.find?, Registry.findIn]
  exact {
    sound := Registry.sound_empty
    inTurn := inTurn_mergeSort scenario.requests
    coming := fun request hrequest => by
      have hmem := List.mem_mergeSort.mp hrequest
      exact ⟨hmem, Network.serves_of_forM hchecked request hmem⟩
    registered := fun request hhas => (hnone request hhas).elim
    ahead := fun hgiven _ _ => ⟨hnone b, (hfirst hgiven).mergeSort hsubmitted⟩
    waits := fun hhas => (hnone a hhas).elim }

end Prefers

/-- A request is rejected: it has not been registered, and the registry would not accept it, or the
network does not serve it. -/
def Rejects (sim : Simulation R) (request : Request) : Prop :=
  ¬sim.requests.Has request ∧ ¬(sim.network.Serves request ∧ sim.requests.Admits request)

instance {sim : Simulation R} {request : Request} : Decidable (sim.Rejects request) :=
  inferInstanceAs (Decidable (_ ∧ _))

end Simulation

/-- Of two elements that never stand the other way round, the one comes before the other. -/
theorem pair_sublist {α : Type} {l : List α} {a b : α}
    (h : l.Pairwise fun x y => x = b → y ≠ a) (hne : a ≠ b) (ha : a ∈ l) (hb : b ∈ l) :
    [a, b].Sublist l := by
  obtain ⟨front, back, rfl⟩ := List.append_of_mem ha
  have hcross := (List.pairwise_append.mp h).2.2
  have hback : b ∈ back := by
    rcases List.mem_append.mp hb with hfront | hlater
    · exact (hcross b hfront a List.mem_cons_self rfl rfl).elim
    · exact (List.mem_cons.mp hlater).resolve_left (Ne.symm hne)
  exact ((List.singleton_sublist.mpr hback).cons_cons a).trans (List.sublist_append_right front _)

/-- A request that is given to a run before another one, and that is not submitted later, is
registered and dispatched before it, provided that neither is rejected and that the other one is not
submitted, being due, while the first one is still to come. -/
theorem Simulation.registered_in_turn {scenario : Scenario R} {sim : Simulation R}
    (hbuild : scenario.build = .ok sim) (observer : Observer R ω) (memory : ω) (calls : List Call)
    {a b : Request}
    (hfirst : a.ComesBefore b (scenario.requests ++ calls.filterMap Call.submission?))
    (hsubmitted : a.submitted ≤ b.submitted)
    (hturn : ∀ done rest, calls = done ++ .submit b :: rest →
      let s := (Call.performAll observer done ⟨sim, memory⟩).sim
      b.submitted ≤ s.now → a ∉ s.arrivals) :
    let reached := (Call.performAll observer calls ⟨sim, memory⟩).sim
    ¬reached.Rejects a → reached.requests.Has b →
      reached.requests.Has a ∧
      (a.id ∈ reached.requests.pending → b.id ∈ reached.requests.pending →
        [a.id, b.id].Sublist reached.requests.pending) ∧
      ∀ report later, dispatchCycle reached = .ok report later →
        a.id ∈ report.planned.map Assignment.request →
        b.id ∈ report.planned.map Assignment.request →
        [a.id, b.id].Sublist (report.planned.map Assignment.request) := by
  intro reached hkept hb
  have hne := hfirst.ne
  have hstart : (⟨sim, memory⟩ : Observed R ω).sim.Prefers a b scenario.requests :=
    .of_build hbuild (fun ha => hfirst.of_append (.inl ha)) hsubmitted
  have h : reached.Prefers a b (scenario.requests ++ calls.filterMap Call.submission?) := by
    refine hstart.performAll hne hsubmitted (fun done rest heq hmem => ?_) hturn
    rw [heq, List.filterMap_append, ← List.append_assoc] at hfirst
    exact (hfirst.of_append (.inr hmem)).mem
  have ha : reached.requests.Has a := by
    by_contra hnot
    have hadmits := not_not.mp fun hrefused => hkept ⟨hnot, hrefused⟩
    exact (h.ahead hfirst.mem hadmits.1 hadmits.2).1 hb
  have hids : a.id ≠ b.id := fun heq => by
    have hboth := ha.symm.trans ((congrArg _ heq).trans hb)
    exact hne (Option.some.inj hboth)
  have hwaits := h.waits ha hb
  refine ⟨ha, pair_sublist hwaits hids, fun report later hrun => ?_⟩
  have hplanned := ((dispatchCycle_follows h.sound).of_ok hrun).1
  exact pair_sublist (hwaits.sublist hplanned) hids

/-- A request that was submitted ahead of its time has been registered when the second one is
submitted, and both wait in this order as no vehicle can be there in time. -/
theorem Simulation.registered_in_turn_twoStops :
    let a : Request := ⟨⟨0⟩, ⟨0⟩, ⟨0⟩, ⟨1⟩, .ofSecs 700, some ⟨.zero, .zero⟩⟩
    let b : Request := ⟨⟨1⟩, ⟨1⟩, ⟨0⟩, ⟨1⟩, .ofSecs 700, some ⟨.zero, .zero⟩⟩
    let calls : List Call := [.submit a, .runSteps 2, .submit b, .runSteps 1]
    ∃ sim, Scenario.twoStops.build = .ok sim ∧
      let reached := (Call.performAll .quiet calls ⟨sim, ()⟩).sim
      reached.requests.Has a ∧ [a.id, b.id].Sublist reached.requests.pending := by
  intro a b calls
  obtain ⟨sim, hbuild⟩ := Scenario.exists_twoStops_build
  let after (calls : List Call) : Simulation Rat := (Call.performAll .quiet calls ⟨sim, ()⟩).sim
  have hrun : (Scenario.twoStops.build.toOption.map fun sim =>
      let early := (Call.performAll .quiet (calls.take 2) ⟨sim, ()⟩).sim
      let late := (Call.performAll .quiet calls ⟨sim, ()⟩).sim
      decide (a ∉ early.arrivals) && decide (¬late.Rejects a) && decide (late.requests.Has b) &&
        decide (a.id ∈ late.requests.pending) && decide (b.id ∈ late.requests.pending)) =
      some true := by
    decide +kernel
  rw [hbuild] at hrun
  simp only [Except.toOption, Option.map_some, Option.some.injEq, Bool.and_eq_true,
    decide_eq_true_eq] at hrun
  obtain ⟨⟨⟨⟨harrived, hkept⟩, hb⟩, hwaitsA⟩, hwaitsB⟩ := hrun
  have hfirst : a.ComesBefore b (Scenario.twoStops.requests ++ calls.filterMap Call.submission?) :=
    by decide
  have hturn : ∀ done rest, calls = done ++ .submit b :: rest →
      b.submitted ≤ (after done).now → a ∉ (after done).arrivals := by
    intro done rest heq _
    obtain rfl : done = calls.take 2 := by
      rcases done with _ | ⟨first, _ | ⟨second, _ | ⟨third, _ | ⟨fourth, done⟩⟩⟩⟩ <;>
        simp_all [calls, a, b]
    exact harrived
  obtain ⟨ha, hpending, -⟩ := registered_in_turn hbuild .quiet () calls hfirst (by decide) hturn
    hkept hb
  exact ⟨sim, hbuild, ha, hpending hwaitsA hwaitsB⟩

/-- Without that proviso the later of two requests is registered first: the other one is due as well
but is still to come, and so it waits behind. -/
theorem Simulation.registered_out_of_turn_twoStops :
    let a : Request := ⟨⟨0⟩, ⟨0⟩, ⟨0⟩, ⟨1⟩, .ofSecs 700, some ⟨.zero, .zero⟩⟩
    let b : Request := ⟨⟨1⟩, ⟨1⟩, ⟨0⟩, ⟨1⟩, .ofSecs 700, some ⟨.zero, .zero⟩⟩
    let calls : List Call := [.submit a, .runSteps 1, .submit b]
    a.ComesBefore b (Scenario.twoStops.requests ++ calls.filterMap Call.submission?) ∧
    a.submitted ≤ b.submitted ∧
    ∃ sim, Scenario.twoStops.build = .ok sim ∧
      let reached := (Call.performAll .quiet calls ⟨sim, ()⟩).sim
      let later := (Call.performAll .quiet (calls ++ [.runSteps 1]) ⟨sim, ()⟩).sim
      (¬reached.Rejects a ∧ reached.requests.Has b ∧ ¬reached.requests.Has a) ∧
      later.requests.Has a ∧ later.requests.pending = [b.id, a.id] := by
  intro a b calls
  obtain ⟨sim, hbuild⟩ := Scenario.exists_twoStops_build
  have hrun : (Scenario.twoStops.build.toOption.map fun sim =>
      let reached := (Call.performAll .quiet calls ⟨sim, ()⟩).sim
      let later := (Call.performAll .quiet (calls ++ [.runSteps 1]) ⟨sim, ()⟩).sim
      decide ((¬reached.Rejects a ∧ reached.requests.Has b ∧ ¬reached.requests.Has a) ∧
        later.requests.Has a ∧ later.requests.pending = [b.id, a.id])) = some true := by
    decide +kernel
  rw [hbuild] at hrun
  refine ⟨by decide, by decide, sim, hbuild, ?_⟩
  simpa only [Except.toOption, Option.map_some, Option.some.injEq, decide_eq_true_eq] using hrun

end DemandTransport
