import DemandTransport.Proofs.Dispatch.Accounting

/-!
# Who comes first is served first

A cycle decides about the pending requests in the order of their submission. Whether one is stale
depends on itself and the time, and what the vehicles answer depends on the plans that were carried
out before. So requests that were submitted later change nothing for those that were submitted
earlier: what is told of these is what would be told if they were the only ones.
-/

namespace DemandTransport

variable {R : Type}

/-- What a report tells of a request: that it is cancelled, planned or unplanned. -/
def DispatchReport.about (report : DispatchReport R) (id : RequestId) :
    List (RequestId × CancelReason) × List (Assignment R) × List (InfeasibleRequest R) :=
  (report.cancelled.filter (·.1 = id), report.planned.filter (·.request = id),
    report.unplanned.filter (·.request = id))

/-- The requests of which a report tells. -/
def DispatchReport.requests (report : DispatchReport R) : List RequestId :=
  report.cancelled.map Prod.fst ++ (report.planned.map Assignment.request ++
    report.unplanned.map InfeasibleRequest.request)

/-- What another report adds about other requests does not matter. -/
theorem DispatchReport.about_absorb {report other : DispatchReport R} {id : RequestId}
    (h : id ∉ other.requests) : (report.absorb other).about id = report.about id := by
  simp only [requests, List.mem_append, List.mem_map, not_or, not_exists, not_and] at h
  obtain ⟨hcancelled, hplanned, hunplanned⟩ := h
  have hone : other.cancelled.filter (·.1 = id) = [] := by simpa using hcancelled
  have htwo : other.planned.filter (·.request = id) = [] := by simpa using hplanned
  have hthree : other.unplanned.filter (·.request = id) = [] := by simpa using hunplanned
  simp [about, absorb, hone, htwo, hthree]

variable [Scalar R]

namespace Dispatcher

/-! ## Serving the same requests twice -/

/-- The serving of requests, one after the other, as far as each depends on the one before. -/
inductive Attempts (policy : CandidatePolicy R) (ctx : DispatchContext R) :
    Operation R → List RequestId → List (RequestOutcome R) → Operation R → Prop where
  | done (op : Operation R) : Attempts policy ctx op [] [] op
  /-- No vehicle can serve a request. -/
  | skip {op op' : Operation R} {id : RequestId} {rest : List RequestId}
    {outcomes : List (RequestOutcome R)} {request : Request} {rejections : List (Rejection R)}
    (known : op.requests.request? id = some request)
    (refused : bestInsertion policy ctx op.fleet request = .error rejections)
    (later : Attempts policy ctx op rest outcomes op') :
    Attempts policy ctx op (id :: rest) (.unplanned ⟨id, rejections⟩ :: outcomes) op'
  /-- The best plan for a request is carried out. -/
  | plan {op op' : Operation R} {id : RequestId} {rest : List RequestId}
    {outcomes : List (RequestOutcome R)} {request : Request} {best : Insertion R}
    {fleet : Fleet R} {requests : Registry} (known : op.requests.request? id = some request)
    (chosen : bestInsertion policy ctx op.fleet request = .ok best)
    (carried : Operation.onVehicle best.vehicle (Vehicle.commit best) op.fleet = .ok () fleet)
    (noted : op.requests.markPlanned id best.vehicle best.pickupAt best.dropoffAt = .ok requests)
    (later : Attempts policy ctx ⟨fleet, requests⟩ rest outcomes op') :
    Attempts policy ctx op (id :: rest)
      (.planned ⟨id, best.vehicle, best.pickupAt, best.dropoffAt, best.cost⟩ :: outcomes) op'

theorem serveAll_attempts {policy : CandidatePolicy R} {ctx : DispatchContext R}
    {ids : List RequestId} {op : Operation R} :
    (serveAll policy ctx ids).Ends op (Attempts policy ctx op ids) fun _ _ => True := by
  induction ids generalizing op with
  | nil => exact .done op
  | cons id rest ih =>
    simp only [serveAll, serve, Operation.request, Operation.onFleet, Operation.onRequests,
      Action.ends_bind, Action.ends_mapError, Action.ends_ask, Action.ends_get, Action.ends_pure]
    split
    next request hrequest =>
      have hknown : op.requests.request? id = some request := by
        obtain ⟨entry, hfind, rfl⟩ := of_request_ok hrequest
        simp [Registry.request?, hfind]
      split
      next rejections hrefused =>
        exact ih.mono (fun _ _ h => .skip hknown hrefused h) fun _ _ h => h
      next best hbest =>
        simp only [Action.ends_bind, Action.ends_within, Action.ends_mapError,
          Registry.InPlace.markPlanned_eq, Action.ends_change, Action.ends_pure]
        refine Action.Ends.mono (Action.Ends.with_run (Action.Ends.of_forall (fun _ _ => trivial)
          fun _ _ => trivial)) ?_ fun _ _ _ => trivial
        rintro ⟨⟩ fleet ⟨-, hcarried⟩
        split
        next requests hnoted =>
          exact ih.mono (fun _ _ h => .plan hknown hbest hcarried hnoted h) fun _ _ h => h
        · trivial
    · trivial

namespace Attempts

variable {policy : CandidatePolicy R} {ctx : DispatchContext R} {op op' other other' : Operation R}
  {ids first last : List RequestId} {outcomes outcomes' : List (RequestOutcome R)}

/-- There is one outcome for each request. -/
theorem map_request (h : Attempts policy ctx op ids outcomes op') :
    outcomes.map RequestOutcome.request = ids := by
  induction h with
  | done => rfl
  | skip _ _ _ ih => simp [RequestOutcome.request, ih]
  | plan _ _ _ _ _ ih => simp [RequestOutcome.request, ih]

/-- The first requests are served before the last ones. -/
theorem split (h : Attempts policy ctx op (first ++ last) outcomes op') :
    ∃ early late mid, outcomes = early ++ late ∧ Attempts policy ctx op first early mid ∧
      Attempts policy ctx mid last late op' := by
  induction first generalizing op outcomes with
  | nil => exact ⟨[], outcomes, op, rfl, .done op, h⟩
  | cons id rest ih =>
    cases h with
    | skip known refused later =>
      obtain ⟨early, late, mid, rfl, hearly, hlate⟩ := ih later
      exact ⟨_ :: early, late, mid, rfl, .skip known refused hearly, hlate⟩
    | plan known chosen carried noted later =>
      obtain ⟨early, late, mid, rfl, hearly, hlate⟩ := ih later
      exact ⟨_ :: early, late, mid, rfl, .plan known chosen carried noted hearly, hlate⟩

/-- What comes of some requests depends on the requests and the fleet only. -/
theorem unique (h : Attempts policy ctx op ids outcomes op')
    (h' : Attempts policy ctx other ids outcomes' other') (hfleet : other.fleet = op.fleet)
    (hsound : op.requests.Sound) (hsound' : other.requests.Sound)
    (hsame : ∀ id ∈ ids, other.requests.request? id = op.requests.request? id) :
    outcomes' = outcomes := by
  induction h generalizing other outcomes' with
  | done =>
    cases h'
    rfl
  | @skip op _ id rest _ request _ known refused _ ih =>
    have hrest : ∀ other' ∈ rest, other.requests.request? other' = op.requests.request? other' :=
      fun other' hother => hsame other' (List.mem_cons_of_mem _ hother)
    have hrequest := (hsame id List.mem_cons_self).trans known
    rw [← hfleet] at refused
    cases h' with
    | skip known' refused' later' =>
      obtain rfl := Option.some.inj (hrequest.symm.trans known')
      cases refused.symm.trans refused'
      rw [ih later' hfleet hsound hsound' hrest]
    | plan known' chosen' _ _ _ =>
      obtain rfl := Option.some.inj (hrequest.symm.trans known')
      cases refused.symm.trans chosen'
  | @plan op _ id rest _ request _ _ _ known chosen carried noted _ ih =>
    have hrest : ∀ other' ∈ rest, other.requests.request? other' = op.requests.request? other' :=
      fun other' hother => hsame other' (List.mem_cons_of_mem _ hother)
    have hrequest := (hsame id List.mem_cons_self).trans known
    rw [← hfleet] at chosen carried
    cases h' with
    | skip known' refused' _ =>
      obtain rfl := Option.some.inj (hrequest.symm.trans known')
      cases chosen.symm.trans refused'
    | plan known' chosen' carried' noted' later' =>
      obtain rfl := Option.some.inj (hrequest.symm.trans known')
      cases chosen.symm.trans chosen'
      cases carried.symm.trans carried'
      obtain ⟨_, hturns⟩ := hsound.markPlanned_ok noted
      obtain ⟨_, hturns'⟩ := hsound'.markPlanned_ok noted'
      rw [ih later' rfl hturns.sound hturns'.sound]
      intro other' hother
      rw [hturns.request?_eq, hturns'.request?_eq]
      exact hrest other' hother

end Attempts

/-! ## Further requests -/

/-- The two passes of a cycle that gives a report. -/
inductive Passes (dispatcher : Dispatcher R) (network : Network R) (router : Router R) (now : Time)
    (op : Operation R) : DispatchReport R → Operation R → Prop where
  | mk {mid op' : Operation R} {cancelled : List (RequestId × CancelReason)}
    {outcomes : List (RequestOutcome R)}
    (cancels : Cancels dispatcher.config now op.requests op.requests.pending cancelled mid.requests)
    (fleet : mid.fleet = op.fleet)
    (attempts : Attempts dispatcher.policy ⟨network, router, dispatcher.config, now⟩ mid
      mid.requests.pending outcomes op') :
    Passes dispatcher network router now op
      { now := now
        planned := outcomes.filterMap RequestOutcome.assignment?
        unplanned := outcomes.filterMap RequestOutcome.infeasible?
        cancelled := cancelled } op'

theorem runCycle_passes {dispatcher : Dispatcher R} {network : Network R} {router : Router R}
    {now : Time} {op op' : Operation R} {report : DispatchReport R} (hsound : op.requests.Sound)
    (h : dispatcher.runCycle network router now op = .ok report op') :
    Passes dispatcher network router now op report op' := by
  have hends : (dispatcher.runCycle network router now).Ends op
      (Passes dispatcher network router now op) fun _ _ => True := by
    simp only [runCycle, Action.ends_bind, Action.ends_get, Action.ends_pure]
    refine (cancelPending_cancels hsound).mono (fun cancelled mid hmid => ?_) fun _ _ h => h
    exact serveAll_attempts.mono (fun outcomes op' h => .mk hmid.1 hmid.2 h) fun _ _ h => h
  exact hends.of_ok h

variable {dispatcher : Dispatcher R} {network : Network R} {router : Router R} {now : Time}
  {op op' other other' : Operation R} {report report' : DispatchReport R}

/-- What comes of the pending requests of a registry comes of them as well when other requests wait
behind them, and nothing more is told but of these. -/
theorem Passes.absorbs {later : List RequestId}
    (h : Passes dispatcher network router now op report op')
    (h' : Passes dispatcher network router now other report' other')
    (hsound : op.requests.Sound) (hsound' : other.requests.Sound) (hfleet : other.fleet = op.fleet)
    (hpending : other.requests.pending = op.requests.pending ++ later)
    (hsame : ∀ id ∈ op.requests.pending, other.requests.request? id = op.requests.request? id) :
    ∃ more, report' = report.absorb more ∧ ∀ id ∈ more.requests, id ∈ later := by
  obtain @⟨mid, _, cancelled, outcomes, hcancels, hmid, hattempts⟩ := h
  obtain @⟨mid', _, cancelled', outcomes', hcancels', hmid', hattempts'⟩ := h'
  have hstale : ∀ id ∈ op.requests.pending, staleOf? dispatcher.config now other.requests id =
      staleOf? dispatcher.config now op.requests id := fun id hid => by
    rw [staleOf?, hsame id hid, staleOf?]
  have hcancelled := hcancels'.eq hsound'
  rw [hpending, List.filterMap_append,
    List.filterMap_congr fun id hid => congrArg (Option.map (id, ·)) (hstale id hid),
    ← hcancels.eq hsound] at hcancelled
  have hleft := hcancels'.pending_eq hsound'
  rw [hpending, List.filter_append,
    List.filter_congr fun id hid => congrArg (fun reason => !reason.isSome) (hstale id hid),
    ← hcancels.pending_eq hsound] at hleft
  rw [hleft] at hattempts'
  obtain ⟨early, late, last, rfl, hearly, hlate⟩ := hattempts'.split
  have hsub : ∀ id ∈ mid.requests.pending, id ∈ op.requests.pending := by
    rw [hcancels.pending_eq hsound]
    exact fun id hid => (List.mem_filter.mp hid).1
  obtain rfl := hattempts.unique hearly (hmid'.trans (hfleet.trans hmid.symm))
    (hcancels.edited hsound hsound.pending_nodup).sound
    (hcancels'.edited hsound' hsound'.pending_nodup).sound fun id hid => by
      rw [hcancels.request?_eq hsound, hcancels'.request?_eq hsound', hsame id (hsub id hid)]
  have hbehind (id : RequestId) (hid : id ∈ late.map RequestOutcome.request) : id ∈ later := by
    rw [hlate.map_request] at hid
    exact (List.mem_filter.mp hid).1
  refine ⟨{
    now := now
    planned := late.filterMap RequestOutcome.assignment?
    unplanned := late.filterMap RequestOutcome.infeasible?
    cancelled := later.filterMap fun id =>
      (staleOf? dispatcher.config now other.requests id).map (id, ·) }, ?_, fun id hid => ?_⟩
  · have hnow : max now now = now := ite_self now
    simp [DispatchReport.absorb, hcancelled, List.filterMap_append, hnow]
  · simp only [DispatchReport.requests, List.mem_append] at hid
    rcases hid with hid | hid | hid
    · obtain ⟨c, hc, rfl⟩ := List.mem_map.mp hid
      obtain ⟨waiting, hwaiting, hreason⟩ := List.mem_filterMap.mp hc
      obtain ⟨reason, -, rfl⟩ := Option.map_eq_some_iff.mp hreason
      exact hwaiting
    · exact hbehind id ((RequestOutcome.assigned_sublist late).subset hid)
    · exact hbehind id ((RequestOutcome.infeasible_sublist late).subset hid)

/-- Whatever requests wait behind the pending ones, a cycle tells the same of these, whether they
are cancelled and why, which vehicle serves them, when and at what cost, or why none does; and what
else it tells is about the requests behind them. -/
theorem runCycle_fair (dispatcher : Dispatcher R) (network : Network R) (router : Router R)
    (now : Time) (fleet : Fleet R) {calls calls' : List Registry.Call} {later : List RequestId}
    {report report' : DispatchReport R} {op op' : Operation R}
    (hpending : (Registry.Call.performAll calls' {}).pending =
      (Registry.Call.performAll calls {}).pending ++ later)
    (hsame : ∀ id ∈ (Registry.Call.performAll calls {}).pending,
      (Registry.Call.performAll calls' {}).request? id =
        (Registry.Call.performAll calls {}).request? id)
    (h : dispatcher.runCycle network router now ⟨fleet, Registry.Call.performAll calls {}⟩ =
      .ok report op)
    (h' : dispatcher.runCycle network router now ⟨fleet, Registry.Call.performAll calls' {}⟩ =
      .ok report' op') :
    (∀ id ∈ (Registry.Call.performAll calls {}).pending, report'.about id = report.about id) ∧
      ∃ more, report' = report.absorb more ∧ ∀ id ∈ more.requests, id ∈ later := by
  have hsound := (Registry.TellsOf.new.performAll calls).sound
  have hsound' := (Registry.TellsOf.new.performAll calls').sound
  obtain ⟨more, rfl, hmore⟩ := (runCycle_passes hsound h).absorbs (runCycle_passes hsound' h')
    hsound hsound' rfl hpending hsame
  refine ⟨fun id hid => DispatchReport.about_absorb fun hin => ?_, more, rfl, hmore⟩
  have hnodup := hsound'.pending_nodup
  rw [hpending] at hnodup
  exact (List.nodup_append.mp hnodup).2.2 id hid id (hmore id hin) rfl

/-- One of three requests has waited for too long, one is planned, and one cannot be served. A
fourth one that is submitted after them is planned as well and changes nothing of this. -/
theorem runCycle_fair_fourRequests :
    let dispatcher : Dispatcher Rat := ⟨{ expireAfterSecs := some 600 }, .allVehicles⟩
    let calls : List Registry.Call :=
      [.submit ⟨⟨0⟩, ⟨0⟩, ⟨0⟩, ⟨1⟩, .zero, none⟩,
        .submit ⟨⟨1⟩, ⟨1⟩, ⟨1⟩, ⟨0⟩, .ofSecs 900, none⟩,
        .submit ⟨⟨2⟩, ⟨2⟩, ⟨0⟩, ⟨1⟩, .ofSecs 900, some ⟨.ofSecs 900, .ofSecs 950⟩⟩]
    let calls' := calls ++ [.submit ⟨⟨3⟩, ⟨3⟩, ⟨1⟩, ⟨0⟩, .ofSecs 950, none⟩]
    let cycle := dispatcher.runCycle .twoStops LeastTime.route (.ofSecs 1000)
    ∃ report op report' op',
      cycle ⟨.twoVehicles, Registry.Call.performAll calls {}⟩ = .ok report op ∧
      cycle ⟨.twoVehicles, Registry.Call.performAll calls' {}⟩ = .ok report' op' ∧
      (∀ id ∈ (Registry.Call.performAll calls {}).pending, report'.about id = report.about id) ∧
      report.requests = [⟨0⟩, ⟨1⟩, ⟨2⟩] ∧ report'.requests = [⟨0⟩, ⟨1⟩, ⟨3⟩, ⟨2⟩] := by
  intro dispatcher calls calls' cycle
  have hpending : (Registry.Call.performAll calls' {}).pending =
      (Registry.Call.performAll calls {}).pending ++ [⟨3⟩] := by decide +kernel
  have hsame : ∀ id ∈ (Registry.Call.performAll calls {}).pending,
      (Registry.Call.performAll calls' {}).request? id =
        (Registry.Call.performAll calls {}).request? id := by decide +kernel
  have hids : ((cycle.outcome ⟨.twoVehicles, Registry.Call.performAll calls {}⟩).1.toOption.map
      DispatchReport.requests) = some [⟨0⟩, ⟨1⟩, ⟨2⟩] := by decide +kernel
  have hids' : ((cycle.outcome ⟨.twoVehicles, Registry.Call.performAll calls' {}⟩).1.toOption.map
      DispatchReport.requests) = some [⟨0⟩, ⟨1⟩, ⟨3⟩, ⟨2⟩] := by decide +kernel
  cases h : cycle ⟨.twoVehicles, Registry.Call.performAll calls {}⟩ with
  | error e op => simp [Action.outcome, h, Except.toOption] at hids
  | ok report op =>
    cases h' : cycle ⟨.twoVehicles, Registry.Call.performAll calls' {}⟩ with
    | error e op' => simp [Action.outcome, h', Except.toOption] at hids'
    | ok report' op' =>
      simp only [Action.outcome, h, Except.toOption, Option.map_some, Option.some.injEq] at hids
      simp only [Action.outcome, h', Except.toOption, Option.map_some, Option.some.injEq] at hids'
      exact ⟨report, op, report', op', rfl, rfl, (runCycle_fair dispatcher .twoStops LeastTime.route
        (.ofSecs 1000) .twoVehicles hpending hsame h h').1, hids, hids'⟩

end Dispatcher

end DemandTransport
