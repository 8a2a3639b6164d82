import DemandTransport.Proofs.Dispatch.Accounting

/-!
# What dispatching leaves of the queue

A registry grows by the requests that it accepts, which wait behind the others. Everything else that
is done to it only lets requests leave the queue: the ones that go on waiting keep their order, and
what was submitted is not altered. A dispatch cycle is of this kind even if it breaks off, and it
plans requests in the order in which they waited.
-/

namespace DemandTransport

variable {R : Type} [Scalar R]

namespace Registry

variable {registry registry' registry'' : Registry} {request other : Request} {id : RequestId}

/-- A request is registered, as it was submitted. -/
def Has (registry : Registry) (request : Request) : Prop :=
  registry.request? request.id = some request

instance : Decidable (registry.Has request) := inferInstanceAs (Decidable (_ = _))

/-- A request would be accepted. -/
def Admits (registry : Registry) (request : Request) : Prop :=
  (registry.submit request).isOk = true

instance : Decidable (registry.Admits request) := inferInstanceAs (Decidable (_ = _))

/-- No request goes by an identifier that has no entry. -/
theorem request?_eq_none : registry.request? id = none ↔ registry.find? id = none :=
  Option.map_eq_none_iff

/-- Only a new request is accepted, unless its window closes before it opens. -/
theorem admits_iff : registry.Admits request ↔
    registry.request? request.id = none ∧
      ∀ window ∈ request.window, window.earliest ≤ window.latest := by
  rw [request?_eq_none, Admits]
  constructor
  · intro hok
    unfold submit at hok
    split at hok
    · cases hok
    next hnew =>
      refine ⟨by simpa using hnew, fun window hwindow => Nat.le_of_not_lt fun hlt => ?_⟩
      have hinverted : window.latest < window.earliest := hlt
      simp [Option.mem_def.mp hwindow, hinverted, Except.isOk, Except.toBool] at hok
  · rintro ⟨hnew, hwindow⟩
    obtain ⟨registry', hsubmit⟩ := exists_submit hnew hwindow
    rw [hsubmit]
    rfl

/-- A request that is refused would not have been accepted. -/
theorem not_admits_of_error {e : DemandError} (h : registry.submit request = .error e) :
    ¬registry.Admits request := by
  rw [Admits, h]
  exact Bool.false_ne_true

/-- What a registry is like once it has accepted a request. -/
structure Accepts (registry registry' : Registry) (request : Request) : Prop where
  sound : registry'.Sound
  admitted : registry.Admits request
  request?_eq : ∀ id,
    registry'.request? id = if id = request.id then some request else registry.request? id
  /-- The request waits behind the others. -/
  pending : registry'.pending = registry.pending ++ [request.id]

/-- Whatever a sound registry accepts it files under its identifier, behind all that waits. -/
theorem Sound.accepts (h : registry.Sound) (hok : registry.submit request = .ok registry') :
    registry.Accepts registry' request := by
  obtain ⟨-, hbecomes⟩ := h.submit_ok hok
  refine ⟨hbecomes.sound, by rw [Admits, hok]; rfl, fun id => ?_, submit_pending hok⟩
  rw [request?, hbecomes.find, apply_ite (Option.map RequestEntry.request)]
  rfl

namespace Accepts

variable (h : registry.Accepts registry' request)

include h

/-- The identifier of an accepted request was not in use. -/
theorem new : registry.request? request.id = none :=
  (admits_iff.mp h.admitted).1

/-- Accepting a request registers it and nothing else. -/
theorem has_iff : registry'.Has other ↔ other = request ∨ registry.Has other := by
  rw [Has, Has, h.request?_eq]
  by_cases hid : other.id = request.id
  · simp [hid, h.new, eq_comm]
  · have hne : other ≠ request := fun heq => hid (congrArg Request.id heq)
    simp [hid, hne]

/-- What is accepted afterwards would have been accepted before, and it is another request. -/
theorem admits (hadmits : registry'.Admits other) : registry.Admits other ∧ other ≠ request := by
  rw [admits_iff, h.request?_eq] at hadmits
  obtain ⟨hnone, hwindow⟩ := hadmits
  by_cases hid : other.id = request.id
  · simp [hid] at hnone
  · rw [if_neg hid] at hnone
    exact ⟨admits_iff.mpr ⟨hnone, hwindow⟩, fun heq => hid (congrArg Request.id heq)⟩

/-- Nothing that is registered already has the identifier of the request. -/
theorem id_ne (hother : registry.Has other) : other.id ≠ request.id := fun hid => by
  rw [Has, hid, h.new] at hother
  cases hother

end Accepts

/-- A registry in which requests have left the queue, but none has been accepted. -/
structure Follows (registry registry' : Registry) : Prop where
  sound : registry'.Sound
  request?_eq : registry'.request? = registry.request?
  /-- Those that still wait do so in the same order. -/
  pending : registry'.pending.Sublist registry.pending

theorem Sound.follows (h : registry.Sound) : registry.Follows registry :=
  ⟨h, rfl, List.Sublist.refl _⟩

/-- Moving one entry on accepts nothing. -/
theorem Turns.follows {entry entry' : RequestEntry}
    (h : registry.Turns registry' id entry entry') : registry.Follows registry' :=
  ⟨h.sound, h.request?_eq, h.pending ▸ List.filter_sublist⟩

namespace Follows

/-- What leaves the queue in two stages leaves it in one. -/
theorem trans (h : registry.Follows registry') (h' : registry'.Follows registry'') :
    registry.Follows registry'' :=
  ⟨h'.sound, h'.request?_eq.trans h.request?_eq, h'.pending.trans h.pending⟩

variable (h : registry.Follows registry')

include h

/-- The same requests are registered. -/
theorem has_iff : registry'.Has request ↔ registry.Has request := by
  rw [Has, Has, h.request?_eq]

/-- The same requests would be accepted. -/
theorem admits_iff : registry'.Admits request ↔ registry.Admits request := by
  rw [Registry.admits_iff, Registry.admits_iff, h.request?_eq]

end Follows

end Registry

/-! ## A dispatch cycle -/

namespace Dispatcher

variable {op : Operation R} {ids : List RequestId}

omit [Scalar R] in
/-- A sweep only lets requests leave the queue, even if it breaks off. -/
theorem cancelStale_follows {config : DispatchConfig} {now : Time} (h : op.requests.Sound) :
    (cancelStale config now ids).Ends op (fun _ op' => op.requests.Follows op'.requests)
      fun _ op' => op.requests.Follows op'.requests := by
  induction ids generalizing op with
  | nil => exact h.follows
  | cons id rest ih =>
    simp only [cancelStale, Operation.request, Operation.onRequests, Action.ends_bind,
      Action.ends_mapError, Action.ends_ask]
    split
    · split
      · exact ih h
      · simp only [Action.ends_bind, Action.ends_mapError, Action.ends_within,
          Registry.InPlace.markCancelled_eq, Action.ends_change, Action.ends_pure]
        split
        next requests hnoted =>
          obtain ⟨_, hturns⟩ := h.markCancelled_ok hnoted
          exact (@ih ⟨op.fleet, requests⟩ hturns.sound).mono
            (fun _ _ hlater => hturns.follows.trans hlater)
            fun _ _ hlater => hturns.follows.trans hlater
        · exact h.follows
    · exact h.follows

omit [Scalar R] in
theorem cancelPending_follows {config : DispatchConfig} {now : Time} (h : op.requests.Sound) :
    (cancelPending config now).Ends op (fun _ op' => op.requests.Follows op'.requests)
      fun _ op' => op.requests.Follows op'.requests := by
  unfold cancelPending
  split
  · exact h.follows
  · exact cancelStale_follows h

/-- Whatever becomes of its schedules, the request that is served is the only one to leave the
queue. -/
theorem serve_follows {policy : CandidatePolicy R} {ctx : DispatchContext R} {id : RequestId}
    (h : op.requests.Sound) :
    (serve policy ctx id).Ends op
      (fun outcome op' => outcome.request = id ∧ op.requests.Follows op'.requests)
      fun _ op' => op.requests.Follows op'.requests := by
  simp only [serve, Operation.request, Action.ends_bind, Action.ends_mapError, Action.ends_ask,
    Action.ends_get]
  split
  · split
    · exact ⟨rfl, h.follows⟩
    · simp only [Operation.onFleet, Operation.onRequests, Action.ends_bind, Action.ends_within,
        Action.ends_mapError, Registry.InPlace.markPlanned_eq, Action.ends_change, Action.ends_pure]
      refine .of_forall (fun _ fleet => ?_) fun _ _ => h.follows
      split
      next requests hnoted =>
        obtain ⟨_, hturns⟩ := h.markPlanned_ok hnoted
        exact ⟨rfl, hturns.follows⟩
      · exact h.follows
  · exact h.follows

theorem serveAll_follows {policy : CandidatePolicy R} {ctx : DispatchContext R}
    (h : op.requests.Sound) :
    (serveAll policy ctx ids).Ends op
      (fun outcomes op' =>
        outcomes.map RequestOutcome.request = ids ∧ op.requests.Follows op'.requests)
      fun _ op' => op.requests.Follows op'.requests := by
  induction ids generalizing op with
  | nil => exact ⟨rfl, h.follows⟩
  | cons id rest ih =>
    simp only [serveAll, Action.ends_bind, Action.ends_pure]
    refine (serve_follows h).mono ?_ fun _ _ hfailed => hfailed
    rintro outcome mid ⟨hrequest, hserved⟩
    refine (ih hserved.sound).mono ?_ fun _ _ hlater => hserved.trans hlater
    rintro outcomes op' ⟨hrequests, hlater⟩
    exact ⟨by rw [List.map_cons, hrequest, hrequests], hserved.trans hlater⟩

/-- A cycle lets requests leave the queue, and it plans them in the order in which they waited. -/
theorem runCycle_follows {dispatcher : Dispatcher R} {network : Network R} {router : Router R}
    {now : Time} (h : op.requests.Sound) :
    (dispatcher.runCycle network router now).Ends op
      (fun report op' =>
        (report.planned.map Assignment.request).Sublist op.requests.pending ∧
          op.requests.Follows op'.requests)
      fun _ op' => op.requests.Follows op'.requests := by
  simp only [runCycle, Action.ends_bind, Action.ends_get, Action.ends_pure]
  refine (cancelPending_follows h).mono (fun _ mid hmid => ?_) fun _ _ hfailed => hfailed
  refine (serveAll_follows hmid.sound).mono ?_ fun _ _ hlater => hmid.trans hlater
  rintro outcomes op' ⟨hrequests, hlater⟩
  refine ⟨?_, hmid.trans hlater⟩
  exact (RequestOutcome.assigned_sublist outcomes).trans (hrequests ▸ hmid.pending)

end Dispatcher

end DemandTransport
