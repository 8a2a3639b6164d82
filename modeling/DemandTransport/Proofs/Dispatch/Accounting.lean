import DemandTransport.Proofs.Demand.Histories
import DemandTransport.Proofs.Dispatch.Cycle
import DemandTransport.Proofs.Dispatch.Succession
import DemandTransport.Proofs.Simulation.Calls

/-!
# A cycle accounts for every pending request

Both passes of a dispatch cycle go through a copy of the list of pending requests, from which they
themselves take requests away. A request that is cancelled or planned leaves the list and is not
named again in the pass, so the report names every pending request once: as cancelled, as planned or
as unplanned, each time in the order of submission. What is left of the list are the unplanned ones.
-/

namespace DemandTransport

variable {R : Type} [Scalar R]

/-! ## Editing several requests -/

namespace Registry

variable {registry registry' registry'' : Registry} {id : RequestId} {entry : RequestEntry}

/-- A registry in which the entries of some requests have been edited. -/
structure Edited (registry registry' : Registry)
    (edits : List (RequestId × (RequestEntry → RequestEntry))) : Prop where
  sound : registry'.Sound
  /-- Each edit concerns the entry that was there. -/
  edited : ∀ edit ∈ edits, ∃ entry, registry.find? edit.1 = some entry ∧
    registry'.find? edit.1 = some (edit.2 entry)
  untouched : ∀ id, id ∉ edits.map Prod.fst → registry'.find? id = registry.find? id
  /-- The requests concerned no longer wait, and the others do as before. -/
  pending : registry'.pending = registry.pending.filter (· ∉ edits.map Prod.fst)

theorem Sound.edited_nil (h : registry.Sound) : registry.Edited registry [] :=
  ⟨h, by simp, fun _ _ => rfl, by simp⟩

/-- A change of one request is followed by edits of others. -/
theorem Edited.cons {update : RequestEntry → RequestEntry}
    {edits : List (RequestId × (RequestEntry → RequestEntry))}
    (hturns : registry.Turns registry' id entry (update entry))
    (h : registry'.Edited registry'' edits) (hid : id ∉ edits.map Prod.fst) :
    registry.Edited registry'' ((id, update) :: edits) := by
  have hfind := hturns.find_eq
  refine ⟨h.sound, fun edit hedit => ?_, fun other hother => ?_, ?_⟩
  · rcases List.mem_cons.mp hedit with rfl | hedit
    · exact ⟨entry, hturns.found, (h.untouched id hid).trans ((hfind id).trans (if_pos rfl))⟩
    · obtain ⟨found, hfound, hedited⟩ := h.edited edit hedit
      have hne : edit.1 ≠ id := fun heq => hid (heq ▸ List.mem_map_of_mem hedit)
      rw [hfind, if_neg hne] at hfound
      exact ⟨found, hfound, hedited⟩
  · obtain ⟨hne, hrest⟩ := not_or.mp (mt List.mem_cons.mpr hother)
    exact (h.untouched other hrest).trans ((hfind other).trans (if_neg hne))
  · rw [h.pending, hturns.pending, List.filter_filter]
    refine List.filter_congr fun other _ => ?_
    rw [List.map_cons]
    by_cases hother : other = id <;> simp [hother, -List.mem_map]

/-- The requests that are registered, as they were submitted. -/
def request? (registry : Registry) (id : RequestId) : Option Request :=
  (registry.find? id).map RequestEntry.request

/-- An entry that moves on is of the same request. -/
theorem Turns.request?_eq {entry' : RequestEntry} (h : registry.Turns registry' id entry entry') :
    registry'.request? = registry.request? := by
  funext other
  rw [request?, request?, h.find_eq]
  split
  next heq => simp [heq, h.found, h.advances.request_eq]
  next => rfl

end Registry

/-! ## What the passes do -/

/-- A request is stale when it has waited for too long or when its window has closed, as far as the
settings ask for this. -/
def Request.IsStale (config : DispatchConfig) (now : Time) (request : Request) : Prop :=
  (∃ secs, config.expireAfterSecs = some secs ∧ secs < now.since request.submitted) ∨
    (config.cancelAfterWindow = true ∧ ∃ window, request.window = some window ∧
      window.latest < now)

namespace Dispatcher

theorem staleReason?_isSome {config : DispatchConfig} {now : Time} {request : Request} :
    (staleReason? config now request).isSome = true ↔ request.IsStale config now := by
  have hexpired : config.expireAfterSecs.any (fun secs => secs < now.since request.submitted) ↔
      ∃ secs, config.expireAfterSecs = some secs ∧ secs < now.since request.submitted := by
    simp [Option.any_eq_true]
  have hclosed : request.latestPickup?.any (fun latest => latest < now) ↔
      ∃ window, request.window = some window ∧ window.latest < now := by
    simp [Request.latestPickup?, Option.any_eq_true]
  simp only [staleReason?, Request.IsStale, ← hexpired, ← hclosed, ← Bool.and_eq_true]
  split
  next hyes => simp [hyes]
  next hno => split <;> simp_all

/-- Why a registered request is stale, if it is. -/
def staleOf? (config : DispatchConfig) (now : Time) (requests : Registry) (id : RequestId) :
    Option CancelReason :=
  (requests.request? id).bind (staleReason? config now)

theorem staleOf?_isSome {config : DispatchConfig} {now : Time} {requests : Registry}
    {id : RequestId} : (staleOf? config now requests id).isSome = true ↔
      ∃ request, requests.request? id = some request ∧ request.IsStale config now := by
  unfold staleOf?
  cases requests.request? id with
  | none => simp
  | some request => simpa using staleReason?_isSome

/-- The cancelling of stale requests, one after the other. -/
inductive Cancels (config : DispatchConfig) (now : Time) :
    Registry → List RequestId → List (RequestId × CancelReason) → Registry → Prop where
  | done (requests : Registry) : Cancels config now requests [] [] requests
  /-- A request that is not stale is kept. -/
  | keep {requests requests' : Registry} {id : RequestId} {rest : List RequestId}
    {cancelled : List (RequestId × CancelReason)} {entry : RequestEntry}
    (found : requests.find? id = some entry)
    (fresh : staleReason? config now entry.request = none)
    (later : Cancels config now requests rest cancelled requests') :
    Cancels config now requests (id :: rest) cancelled requests'
  /-- A stale one is cancelled. -/
  | cancel {requests requests₁ requests' : Registry} {id : RequestId} {rest : List RequestId}
    {cancelled : List (RequestId × CancelReason)} {entry : RequestEntry} {reason : CancelReason}
    (found : requests.find? id = some entry)
    (stale : staleReason? config now entry.request = some reason)
    (noted : requests.markCancelled id reason now = .ok requests₁)
    (later : Cancels config now requests₁ rest cancelled requests') :
    Cancels config now requests (id :: rest) ((id, reason) :: cancelled) requests'

/-- The planning of requests, one after the other, each against the schedules that the ones before
it have left. -/
inductive Serves (ctx : DispatchContext R) :
    Operation R → List RequestId → List (RequestOutcome R) → Operation R → Prop where
  | done (op : Operation R) : Serves ctx op [] [] op
  /-- A request that no vehicle can serve is passed over. -/
  | skip {op op' : Operation R} {id : RequestId} {rest : List RequestId}
    {outcomes : List (RequestOutcome R)} {rejections : List (Rejection R)}
    (later : Serves ctx op rest outcomes op') :
    Serves ctx op (id :: rest) (.unplanned ⟨id, rejections⟩ :: outcomes) op'
  /-- A plan for any other one is carried out. -/
  | plan {op op' : Operation R} {id : RequestId} {rest : List RequestId}
    {outcomes : List (RequestOutcome R)} {entry : RequestEntry} {a b : List (Vehicle R)}
    {v v' : Vehicle R} {plan : Insertion R} {requests : Registry} {stay : Task R}
    {before head left : List (Task R)} (found : op.requests.find? id = some entry)
    (vehicle : op.fleet.vehicles = a ++ v :: b) (place : a.length = v.id.index)
    (evaluated : v.evaluate ctx entry.request = .ok plan)
    (carried : Vehicle.Carries ctx.now before stay head [plan.tasks] left v v')
    (noted : op.requests.markPlanned id v.id plan.pickupAt plan.dropoffAt = .ok requests)
    (later : Serves ctx ⟨⟨a ++ v' :: b⟩, requests⟩ rest outcomes op') :
    Serves ctx op (id :: rest)
      (.planned ⟨id, v.id, plan.pickupAt, plan.dropoffAt, plan.cost⟩ :: outcomes) op'

omit [Scalar R] in
/-- Only a registered request is found. -/
theorem of_request_ok {requests : Registry} {id : RequestId} {request : Request}
    (h : requests.request id = .ok request) :
    ∃ entry, requests.find? id = some entry ∧ entry.request = request := by
  unfold Registry.request Registry.get at h
  cases hfind : requests.find? id with
  | none => simp [hfind, Except.map] at h
  | some entry => exact ⟨entry, rfl, by simpa [hfind, Except.map] using h⟩

omit [Scalar R] in
/-- Cancelling goes through the requests one by one and leaves the fleet alone. -/
theorem cancelStale_cancels {config : DispatchConfig} {now : Time} {ids : List RequestId}
    {op : Operation R} :
    (cancelStale config now ids).Ends op
      (fun cancelled op' => Cancels config now op.requests ids cancelled op'.requests ∧
        op'.fleet = op.fleet) fun _ _ => True := by
  induction ids generalizing op with
  | nil => exact ⟨.done _, rfl⟩
  | cons id rest ih =>
    simp only [cancelStale, Operation.request, Operation.onRequests, Action.ends_bind,
      Action.ends_mapError, Action.ends_ask]
    split
    next request hrequest =>
      obtain ⟨entry, hfind, rfl⟩ := of_request_ok hrequest
      split
      next hfresh => exact ih.mono (fun _ _ h => ⟨.keep hfind hfresh h.1, h.2⟩) fun _ _ h => h
      next reason hstale =>
        simp only [Action.ends_bind, Action.ends_mapError, Action.ends_within,
          Registry.InPlace.markCancelled_eq, Action.ends_change, Action.ends_pure]
        split
        next requests hnoted =>
          exact ih.mono (fun _ _ h => ⟨.cancel hfind hstale hnoted h.1, h.2⟩) fun _ _ h => h
        · trivial
    · trivial

/-- Planning goes through the requests one by one. -/
theorem serveAll_serves {policy : CandidatePolicy R} {ctx : DispatchContext R}
    {ids : List RequestId} {op : Operation R} (hfleet : Numbered op.fleet.vehicles)
    (hvalid : ∀ v ∈ op.fleet.vehicles, v.schedule.Valid) :
    (serveAll policy ctx ids).Ends op (Serves ctx op ids) fun _ _ => True := by
  induction ids generalizing op with
  | nil => exact .done op
  | cons id rest ih =>
    simp only [serveAll, serve, Operation.request, Operation.onFleet, Operation.onRequests,
      Action.ends_bind, Action.ends_mapError, Action.ends_ask, Action.ends_get, Action.ends_pure]
    split
    next request hrequest =>
      obtain ⟨entry, hfind, rfl⟩ := of_request_ok hrequest
      split
      · exact (ih hfleet hvalid).mono (fun _ _ h => .skip h) fun _ _ h => h
      next plan hplan =>
        obtain ⟨a, v, b, hsplit, hvehicle, hplace, heval⟩ := bestInsertion_ok hfleet hplan
        rw [hsplit] at hfleet hvalid
        have hv := hvalid v (by simp)
        simp only [Action.ends_bind, Action.ends_within, Action.ends_mapError,
          Registry.InPlace.markPlanned_eq, Action.ends_change, Action.ends_pure, hvehicle]
        rw [Operation.onVehicle_ends hsplit hplace]
        refine (Vehicle.commit_valid hv heval).with_run.mono ?_ fun _ _ _ => trivial
        rintro ⟨⟩ v' ⟨hv', hcommit⟩
        obtain ⟨before, stay, head, left, hcarries⟩ := Vehicle.commit_carries hv heval hcommit
        have hid : v'.id = v.id := by rw [hcarries.same]
        split
        next requests hnoted =>
          exact (@ih ⟨⟨a ++ v' :: b⟩, requests⟩ (hfleet.replace hid)
            (forall_mem_replace hvalid hv')).mono
            (fun _ _ h => .plan hfind hsplit hplace heval hcarries hnoted h) fun _ _ h => h
        · trivial
    · trivial

/-! ## Requests of a pass -/

/-- How the entry of a cancelled request is edited. -/
def cancellation (now : Time) (cancelled : RequestId × CancelReason) :
    RequestId × (RequestEntry → RequestEntry) :=
  (cancelled.1, fun entry =>
    { entry with status := .cancelled cancelled.2, cancelledAt := some now })

namespace Cancels

variable {config : DispatchConfig} {now : Time} {requests requests' : Registry}
  {ids : List RequestId} {cancelled : List (RequestId × CancelReason)}

theorem request?_eq (h : Cancels config now requests ids cancelled requests')
    (hsound : requests.Sound) : requests'.request? = requests.request? := by
  induction h with
  | done => rfl
  | keep _ _ _ ih => exact ih hsound
  | cancel _ _ noted _ ih =>
    obtain ⟨_, hturns⟩ := hsound.markCancelled_ok noted
    exact (ih hturns.sound).trans hturns.request?_eq

/-- Exactly the stale requests are cancelled, in their order. -/
theorem eq (h : Cancels config now requests ids cancelled requests') (hsound : requests.Sound) :
    cancelled = ids.filterMap fun id => (staleOf? config now requests id).map (id, ·) := by
  induction h with
  | done => rfl
  | @keep requests _ id _ _ _ found fresh _ ih =>
    have hnone : staleOf? config now requests id = none := by
      simp [staleOf?, Registry.request?, found, fresh]
    simpa [hnone] using ih hsound
  | @cancel requests requests₁ _ id rest _ entry reason found stale noted _ ih =>
    obtain ⟨_, hturns⟩ := hsound.markCancelled_ok noted
    have hsame : staleOf? config now requests₁ = staleOf? config now requests := by
      funext other
      rw [staleOf?, hturns.request?_eq, staleOf?]
    have hsome : staleOf? config now requests id = some reason := by
      simp [staleOf?, Registry.request?, found, stale]
    have hrest := ih hturns.sound
    rw [hsame] at hrest
    simpa [hsome] using hrest

/-- The stale requests are cancelled, in their order. -/
theorem map_fst (h : Cancels config now requests ids cancelled requests')
    (hsound : requests.Sound) :
    cancelled.map Prod.fst = ids.filter fun id => (staleOf? config now requests id).isSome := by
  rw [h.eq hsound, List.map_filterMap, ← List.filterMap_eq_filter]
  refine List.filterMap_congr fun id _ => ?_
  cases hstale : staleOf? config now requests id <;> simp [Option.guard, hstale]

theorem edited (h : Cancels config now requests ids cancelled requests') (hsound : requests.Sound)
    (hids : ids.Nodup) : requests.Edited requests' (cancelled.map (cancellation now)) := by
  induction h with
  | done => exact hsound.edited_nil
  | keep _ _ _ ih => exact ih hsound (List.nodup_cons.mp hids).2
  | @cancel requests requests₁ _ id rest cancelled entry reason found _ noted later ih =>
    obtain ⟨hid, hrest⟩ := List.nodup_cons.mp hids
    obtain ⟨_, hturns⟩ := hsound.markCancelled_ok noted
    refine .cons hturns (ih hturns.sound hrest) fun hmem => hid ?_
    have hsub : (cancelled.map Prod.fst).Sublist rest :=
      later.map_fst hturns.sound ▸ List.filter_sublist
    exact hsub.subset (by simpa [cancellation] using hmem)

/-- The pending requests that are not stale are left. -/
theorem pending_eq (h : Cancels config now requests requests.pending cancelled requests')
    (hsound : requests.Sound) : requests'.pending =
      requests.pending.filter fun id => !(staleOf? config now requests id).isSome := by
  have hleft := (h.edited hsound hsound.pending_nodup).pending
  rw [show (cancelled.map (cancellation now)).map Prod.fst = cancelled.map Prod.fst by
    simp [cancellation, Function.comp_def], h.map_fst hsound] at hleft
  rw [hleft]
  refine List.filter_congr fun id hid => ?_
  simp only [List.mem_filter, hid, true_and]
  cases staleOf? config now requests id <;> rfl

end Cancels

end Dispatcher

/-- How the entry of a planned request is edited. -/
def Assignment.edit (assignment : Assignment R) : RequestId × (RequestEntry → RequestEntry) :=
  (assignment.request, fun entry =>
    { entry with
      status := .planned, vehicle := some assignment.vehicle
      plannedPickup := some assignment.pickupAt, plannedDropoff := some assignment.dropoffAt })

namespace RequestOutcome

/-- The request that was served or not. -/
def request : RequestOutcome R → RequestId
  | planned a => a.request
  | unplanned r => r.request

/-- Whether it was served. -/
def isPlanned : RequestOutcome R → Bool
  | planned _ => true
  | unplanned _ => false

omit [Scalar R] in
theorem assigned_eq (outcomes : List (RequestOutcome R)) :
    (outcomes.filterMap assignment?).map Assignment.request =
      (outcomes.filter isPlanned).map request := by
  induction outcomes with
  | nil => rfl
  | cons outcome rest ih =>
    cases outcome with
    | planned a => exact congrArg (a.request :: ·) ih
    | unplanned r => exact ih

omit [Scalar R] in
theorem infeasible_eq (outcomes : List (RequestOutcome R)) :
    (outcomes.filterMap infeasible?).map InfeasibleRequest.request =
      (outcomes.filter fun o => !o.isPlanned).map request := by
  induction outcomes with
  | nil => rfl
  | cons outcome rest ih =>
    cases outcome with
    | planned a => exact ih
    | unplanned r => exact congrArg (r.request :: ·) ih

omit [Scalar R] in
/-- The assigned requests are in the order in which they were served. -/
theorem assigned_sublist (outcomes : List (RequestOutcome R)) :
    ((outcomes.filterMap assignment?).map Assignment.request).Sublist (outcomes.map request) := by
  rw [assigned_eq]
  exact List.filter_sublist.map _

omit [Scalar R] in
theorem infeasible_sublist (outcomes : List (RequestOutcome R)) :
    ((outcomes.filterMap infeasible?).map InfeasibleRequest.request).Sublist
      (outcomes.map request) := by
  rw [infeasible_eq]
  exact List.filter_sublist.map _

omit [Scalar R] in
/-- Every request is either assigned or not. -/
theorem perm (outcomes : List (RequestOutcome R)) :
    ((outcomes.filterMap assignment?).map Assignment.request ++
      (outcomes.filterMap infeasible?).map InfeasibleRequest.request).Perm
      (outcomes.map request) := by
  rw [assigned_eq, infeasible_eq, ← List.map_append]
  exact (List.filter_append_perm _ outcomes).map request

omit [Scalar R] in
/-- Without the assigned requests the others are left. -/
theorem filter_not_assigned {outcomes : List (RequestOutcome R)}
    (hids : (outcomes.map request).Nodup) :
    (outcomes.map request).filter
        (· ∉ (outcomes.filterMap assignment?).map Assignment.request) =
      (outcomes.filterMap infeasible?).map InfeasibleRequest.request := by
  rw [assigned_eq, infeasible_eq, List.filter_map]
  congr 1
  refine List.filter_congr fun outcome houtcome => ?_
  have hmem : outcome.request ∈ (outcomes.filter isPlanned).map request ↔
      outcome.isPlanned = true := by
    constructor
    · intro hmem
      obtain ⟨other, hother, hsame⟩ := List.mem_map.mp hmem
      obtain ⟨hmember, hassigned⟩ := List.mem_filter.mp hother
      rwa [List.inj_on_of_nodup_map hids hmember houtcome hsame] at hassigned
    · exact fun hassigned => List.mem_map_of_mem (List.mem_filter.mpr ⟨houtcome, hassigned⟩)
  simp only [Function.comp_apply, hmem]
  cases outcome.isPlanned <;> rfl

end RequestOutcome

namespace Dispatcher

variable {ctx : DispatchContext R} {op op' : Operation R} {ids : List RequestId}
  {outcomes : List (RequestOutcome R)}

/-- There is one outcome for each request. -/
theorem Serves.map_request (h : Serves ctx op ids outcomes op') :
    outcomes.map RequestOutcome.request = ids := by
  induction h with
  | done => rfl
  | skip _ ih => simp [RequestOutcome.request, ih]
  | plan _ _ _ _ _ _ _ ih => simp [RequestOutcome.request, ih]

/-- The entries of the requests that are assigned are edited, and no others. -/
theorem Serves.edited (h : Serves ctx op ids outcomes op') (hsound : op.requests.Sound)
    (hids : ids.Nodup) : op.requests.Edited op'.requests
      ((outcomes.filterMap RequestOutcome.assignment?).map Assignment.edit) := by
  induction h with
  | done => exact hsound.edited_nil
  | skip _ ih => exact ih hsound (List.nodup_cons.mp hids).2
  | plan _ _ _ _ _ noted later ih =>
    obtain ⟨hid, hrest⟩ := List.nodup_cons.mp hids
    obtain ⟨_, hturns⟩ := hsound.markPlanned_ok noted
    refine .cons hturns (ih hturns.sound hrest) fun hmem => hid ?_
    rw [← later.map_request, ← (RequestOutcome.perm _).mem_iff]
    exact List.mem_append_left _ (by simpa [Assignment.edit] using hmem)

end Dispatcher

/-! ## Vehicles of a pass -/

/-- A vehicle before and after some assignments were made: the trips of those that name it stand one
directly behind the other after the tasks that it had before its trailing idle time, and without any
it is as before. -/
def Vehicle.Takes (now : Time) (requests : RequestId → Option Request)
    (assignments : List (Assignment R)) (v v' : Vehicle R) : Prop :=
  ∃ trips, List.Forall₂ (fun a trip => ∃ request, requests a.request = some request ∧
      request.IsServedBy a.pickupAt a.dropoffAt trip)
    (assignments.filter fun a => a.vehicle = v.id) trips ∧
    (trips = [] ∧ v' = v ∨
      ∃ before stay head left, Carries now before stay head trips left v v')

namespace Vehicle

variable {now : Time} {requests : RequestId → Option Request} {assignments : List (Assignment R)}
  {assignment : Assignment R} {v v₁ v' : Vehicle R}

omit [Scalar R] in
theorem Takes.none (now : Time) (requests : RequestId → Option Request) (v : Vehicle R) :
    v.Takes now requests [] v :=
  ⟨[], .nil, .inl ⟨rfl, rfl⟩⟩

omit [Scalar R] in
/-- An assignment of another vehicle does not matter. -/
theorem Takes.other (h : v.Takes now requests assignments v') (hother : assignment.vehicle ≠ v.id) :
    v.Takes now requests (assignment :: assignments) v' := by
  unfold Takes at *
  rwa [List.filter_cons_of_neg (by simpa using hother)]

omit [Scalar R] in
/-- The trip of the first assignment comes first. -/
theorem Takes.cons {before head left trip : List (Task R)} {stay : Task R} {request : Request}
    (h : v₁.Takes now requests assignments v') (hvehicle : assignment.vehicle = v.id)
    (hcarries : Carries now before stay head [trip] left v v₁)
    (hknown : requests assignment.request = some request)
    (hserves : request.IsServedBy assignment.pickupAt assignment.dropoffAt trip) :
    v.Takes now requests (assignment :: assignments) v' := by
  have hid : v₁.id = v.id := by rw [hcarries.same]
  obtain ⟨trips, htrips, hlater⟩ := h
  rw [hid] at htrips
  refine ⟨trip :: trips, ?_, .inr ?_⟩
  · rw [List.filter_cons_of_pos (by simpa using hvehicle)]
    exact .cons ⟨request, hknown, hserves⟩ htrips
  · rcases hlater with ⟨rfl, rfl⟩ | ⟨before', stay', head', left', hlater⟩
    · exact ⟨before, stay, head, left, hcarries⟩
    · exact ⟨before, stay, head, left', hcarries.cons hserves.last hlater⟩

end Vehicle

namespace Dispatcher

variable {ctx : DispatchContext R} {op op' : Operation R} {ids : List RequestId}
  {outcomes : List (RequestOutcome R)}

/-- Each vehicle takes the trips that it is assigned. -/
theorem Serves.vehicles (h : Serves ctx op ids outcomes op') (hsound : op.requests.Sound)
    (hfleet : Numbered op.fleet.vehicles) :
    List.Forall₂ (Vehicle.Takes ctx.now op.requests.request?
      (outcomes.filterMap RequestOutcome.assignment?)) op.fleet.vehicles op'.fleet.vehicles := by
  induction h with
  | done => exact List.forall₂_same.mpr fun v _ => .none _ _ v
  | skip _ ih => exact ih hsound hfleet
  | @plan op op' id rest outcomes entry a b v v' plan requests stay before head left found vehicle
      place evaluated carried noted later ih =>
    obtain ⟨_, hturns⟩ := hsound.markPlanned_ok noted
    have hid : v'.id = v.id := by rw [carried.same]
    rw [vehicle] at hfleet ⊢
    have hrest := ih hturns.sound (hfleet.replace hid)
    rw [hturns.request?_eq] at hrest
    have hnodup := hfleet.nodup
    rw [List.map_append, List.map_cons, List.nodup_middle, ← List.map_append,
      List.nodup_cons] at hnodup
    refine forall₂_of_replace hrest (fun u hu u' htakes => htakes.other fun heq => ?_)
      fun v'' htakes => htakes.cons rfl carried (by simp [Registry.request?, found])
        (Vehicle.evaluate_serves evaluated)
    have hmine : v.id = u.id := heq
    exact hnodup.1 (hmine ▸ List.mem_map_of_mem hu)

/-! ## A whole cycle -/

/-- How a cycle accounts for the pending requests and the vehicles. -/
structure Accounts (config : DispatchConfig) (now : Time) (op : Operation R)
    (report : DispatchReport R) (op' : Operation R) : Prop where
  /-- No request was pending twice. -/
  nodup : op.requests.pending.Nodup
  /-- Each pending request is reported once, in one of three ways. -/
  complete : (report.cancelled.map Prod.fst ++ (report.planned.map Assignment.request ++
    report.unplanned.map InfeasibleRequest.request)).Perm op.requests.pending
  /-- Each list is in the order of submission. -/
  cancelled_sublist : (report.cancelled.map Prod.fst).Sublist op.requests.pending
  planned_sublist : (report.planned.map Assignment.request).Sublist op.requests.pending
  unplanned_sublist :
    (report.unplanned.map InfeasibleRequest.request).Sublist op.requests.pending
  /-- The cancelled requests are those that are stale. -/
  stale : ∀ id ∈ op.requests.pending, id ∈ report.cancelled.map Prod.fst ↔
    ∃ request, op.requests.request? id = some request ∧ request.IsStale config now
  /-- The unplanned ones go on waiting in their order. -/
  pending : op'.requests.pending = report.unplanned.map InfeasibleRequest.request
  /-- A planned request is planned as reported. -/
  planned : ∀ a ∈ report.planned, ∃ entry, op.requests.find? a.request = some entry ∧
    op'.requests.find? a.request = some
      { entry with
        status := .planned, vehicle := some a.vehicle
        plannedPickup := some a.pickupAt, plannedDropoff := some a.dropoffAt }
  /-- A cancelled request is cancelled for the reason reported. -/
  cancelled : ∀ c ∈ report.cancelled, ∃ entry, op.requests.find? c.1 = some entry ∧
    op'.requests.find? c.1 = some { entry with status := .cancelled c.2, cancelledAt := some now }
  /-- All other requests are as before. -/
  untouched : ∀ id, id ∉ report.cancelled.map Prod.fst →
    id ∉ report.planned.map Assignment.request →
    op'.requests.find? id = op.requests.find? id
  /-- Each vehicle takes the trips assigned to it in the order of the report. -/
  vehicles : List.Forall₂ (Vehicle.Takes now op.requests.request? report.planned)
    op.fleet.vehicles op'.fleet.vehicles

omit [Scalar R] in
/-- Where the settings do not ask for it, no request is stale. -/
theorem cancelPending_cancels {config : DispatchConfig} {now : Time} {op : Operation R}
    (hsound : op.requests.Sound) :
    (cancelPending (R := R) config now).Ends op
      (fun cancelled op' =>
        Cancels config now op.requests op.requests.pending cancelled op'.requests ∧
          op'.fleet = op.fleet) fun _ _ => True := by
  unfold cancelPending
  split
  next hoff =>
    have hfresh : ∀ request, staleReason? config now request = none := by
      obtain ⟨hexpire, hwindow⟩ := hoff
      simp_all [staleReason?]
    have hkeep {ids : List RequestId}
        (hids : ∀ id ∈ ids, ∃ entry, op.requests.find? id = some entry) :
        Cancels config now op.requests ids [] op.requests := by
      induction ids with
      | nil => exact .done _
      | cons id rest ih =>
        obtain ⟨entry, hfind⟩ := hids id List.mem_cons_self
        exact .keep hfind (hfresh entry.request)
          (ih fun other hother => hids other (List.mem_cons_of_mem id hother))
    refine ⟨hkeep fun id hid => ?_, rfl⟩
    obtain ⟨entry, hfind, -⟩ := hsound.find_pending hid
    exact ⟨entry, hfind⟩
  next => exact cancelStale_cancels

/-- When stale requests have been cancelled and the remaining ones served, every pending request is
accounted for. -/
theorem accounts_of_passes {config : DispatchConfig} {ctx : DispatchContext R}
    {op mid op' : Operation R} {cancelled : List (RequestId × CancelReason)}
    {outcomes : List (RequestOutcome R)} (hsound : op.requests.Sound)
    (hfleet : Numbered op.fleet.vehicles)
    (hcancels : Cancels config ctx.now op.requests op.requests.pending cancelled mid.requests)
    (hmid : mid.fleet = op.fleet) (hserves : Serves ctx mid mid.requests.pending outcomes op') :
    Accounts config ctx.now op
      { now := ctx.now
        planned := outcomes.filterMap RequestOutcome.assignment?
        unplanned := outcomes.filterMap RequestOutcome.infeasible?
        cancelled := cancelled } op' := by
  have hnodup := hsound.pending_nodup
  have hcancelled := hcancels.edited hsound hnodup
  have hmidNodup := hcancelled.sound.pending_nodup
  have hplanned := hserves.edited hcancelled.sound hmidNodup
  have hserved := hserves.map_request
  have hcancelledIds : (cancelled.map (cancellation ctx.now)).map Prod.fst =
      cancelled.map Prod.fst := by simp [cancellation, Function.comp_def]
  have hplannedIds :
      ((outcomes.filterMap RequestOutcome.assignment?).map Assignment.edit).map Prod.fst =
        (outcomes.filterMap RequestOutcome.assignment?).map Assignment.request := by
    simp [Assignment.edit, Function.comp_def]
  have hleft := hcancelled.pending
  have hpending := hplanned.pending
  rw [hcancelledIds] at hleft
  rw [hplannedIds, ← hserved, RequestOutcome.filter_not_assigned (hserved ▸ hmidNodup)] at hpending
  have hperm := RequestOutcome.perm outcomes
  rw [hserved] at hperm
  have hapart : ∀ id ∈ (outcomes.filterMap RequestOutcome.assignment?).map Assignment.request,
      id ∉ cancelled.map Prod.fst := by
    intro id hid
    have hmem := hperm.subset (List.mem_append_left _ hid)
    rw [hleft] at hmem
    simpa using (List.mem_filter.mp hmem).2
  have hstale := hcancels.map_fst hsound
  have hmidSub : mid.requests.pending.Sublist op.requests.pending := hleft ▸ List.filter_sublist
  have hservedSub : (outcomes.map RequestOutcome.request).Sublist op.requests.pending :=
    hserved ▸ hmidSub
  refine {
    nodup := hnodup
    complete := (hperm.append_left _).trans ?_
    cancelled_sublist := hstale ▸ List.filter_sublist
    planned_sublist := (RequestOutcome.assigned_sublist outcomes).trans hservedSub
    unplanned_sublist := (RequestOutcome.infeasible_sublist outcomes).trans hservedSub
    stale := fun id hid => ?_
    pending := hpending
    planned := fun a ha => ?_
    cancelled := fun c hc => ?_
    untouched := fun id hcancelledId hplannedId => ?_
    vehicles := ?_ }
  · rw [hcancels.pending_eq hsound, hstale]
    exact List.filter_append_perm _ _
  · rw [hstale, List.mem_filter, staleOf?_isSome]
    exact and_iff_right hid
  · obtain ⟨entry, hfind, hedited⟩ := hplanned.edited _ (List.mem_map_of_mem ha)
    refine ⟨entry, (hcancelled.untouched _ ?_).symm.trans hfind, hedited⟩
    rw [hcancelledIds]
    exact hapart a.request (List.mem_map_of_mem ha)
  · obtain ⟨entry, hfind, hedited⟩ := hcancelled.edited _ (List.mem_map_of_mem hc)
    refine ⟨entry, hfind, (hplanned.untouched _ ?_).trans hedited⟩
    rw [hplannedIds]
    exact fun hmem => hapart c.1 hmem (List.mem_map_of_mem hc)
  · rw [hplanned.untouched id (by rwa [hplannedIds]),
      hcancelled.untouched id (by rwa [hcancelledIds])]
  · have hvehicles := hserves.vehicles hcancelled.sound (by rwa [hmid])
    rwa [hmid, hcancels.request?_eq hsound] at hvehicles

/-- A cycle that ends without failure accounts for every request that was pending, whatever the
policy, the router and the settings are. -/
theorem runCycle_accounts (dispatcher : Dispatcher R) (network : Network R) (router : Router R)
    (now : Time) {fleet : Fleet R} (calls : List Registry.Call) (hfleet : Numbered fleet.vehicles)
    (hvalid : ∀ v ∈ fleet.vehicles, v.schedule.validate = .ok ()) {report : DispatchReport R}
    {op' : Operation R}
    (h : dispatcher.runCycle network router now ⟨fleet, Registry.Call.performAll calls {}⟩ =
      .ok report op') :
    Accounts dispatcher.config now ⟨fleet, Registry.Call.performAll calls {}⟩ report op' := by
  generalize hop : (⟨fleet, Registry.Call.performAll calls {}⟩ : Operation R) = op at h
  obtain rfl : op.fleet = fleet := by rw [← hop]
  have hsound : op.requests.Sound := by
    rw [← hop]
    exact (Registry.TellsOf.new.performAll calls).sound
  have hends : (dispatcher.runCycle network router now).Ends op
      (fun report op' => Accounts dispatcher.config now op report op') fun _ _ => True := by
    simp only [runCycle, Action.ends_bind, Action.ends_get, Action.ends_pure]
    refine (cancelPending_cancels hsound).mono (fun cancelled mid hmid => ?_) fun _ _ h => h
    have hserves := @serveAll_serves R _ dispatcher.policy
      ⟨network, router, dispatcher.config, now⟩ mid.requests.pending mid (by rwa [hmid.2])
      fun v hv => Schedule.validate_eq_ok_iff.mp (hvalid v (hmid.2 ▸ hv))
    exact hserves.mono (fun outcomes op' hserves =>
      accounts_of_passes hsound hfleet hmid.1 hmid.2 hserves) fun _ _ h => h
  exact hends.of_ok h

/-- Of three pending requests the first has waited for too long, the second can be served, and the
window of the third has closed. -/
theorem runCycle_accounts_threeRequests :
    let dispatcher : Dispatcher Rat := ⟨{ expireAfterSecs := some 600 }, .allVehicles⟩
    let calls : List Registry.Call :=
      [.submit ⟨⟨0⟩, ⟨0⟩, ⟨0⟩, ⟨1⟩, .zero, none⟩,
        .submit ⟨⟨1⟩, ⟨1⟩, ⟨1⟩, ⟨0⟩, .ofSecs 900, none⟩,
        .submit ⟨⟨2⟩, ⟨2⟩, ⟨0⟩, ⟨1⟩, .ofSecs 900, some ⟨.ofSecs 900, .ofSecs 950⟩⟩]
    let op : Operation Rat := ⟨.twoVehicles, Registry.Call.performAll calls {}⟩
    ∃ report op', dispatcher.runCycle .twoStops LeastTime.route (.ofSecs 1000) op = .ok report op' ∧
      Accounts dispatcher.config (.ofSecs 1000) op report op' ∧
      report.cancelled = [(⟨0⟩, .expired)] ∧
      report.planned.map Assignment.request = [⟨1⟩] ∧
      report.unplanned.map InfeasibleRequest.request = [⟨2⟩] := by
  intro dispatcher calls op
  have hfleet : Numbered Fleet.twoVehicles.vehicles := Scenario.twoStops_isNew.fleet.numbered
  have hvalid : ∀ v ∈ Fleet.twoVehicles.vehicles, v.schedule.validate = .ok () := fun v hv =>
    Schedule.validate_eq_ok_iff.mpr
      (Scenario.twoStops_isNew.fleet.vehicles v hv).schedule.validOver.toValid
  let ids (report : DispatchReport Rat) :=
    (report.cancelled, report.planned.map Assignment.request,
      report.unplanned.map InfeasibleRequest.request)
  let cycle := dispatcher.runCycle .twoStops LeastTime.route (.ofSecs 1000)
  have hids : (cycle.outcome op).1.toOption.map ids =
      some ([(⟨0⟩, .expired)], [⟨1⟩], [⟨2⟩]) := by
    decide +kernel
  cases hrun : cycle op with
  | error e op' => simp [Action.outcome, hrun, Except.toOption] at hids
  | ok report op' =>
    simp only [Action.outcome, hrun, Except.toOption, Option.map_some, Option.some.injEq, ids,
      Prod.mk.injEq] at hids
    exact ⟨report, op', hrun, runCycle_accounts dispatcher .twoStops LeastTime.route
      (.ofSecs 1000) calls hfleet hvalid hrun, hids⟩

end Dispatcher

end DemandTransport
