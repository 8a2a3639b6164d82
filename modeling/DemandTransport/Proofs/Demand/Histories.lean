import DemandTransport.Proofs.Action
import DemandTransport.Proofs.Demand.Lifecycle

/-!
# Histories of a registry

A registry is changed only by its five calls, each of which may be refused. A call that is made
either accepts a new request or advances the entry of one request; one that is refused changes
nothing. Whatever calls are made on a new registry, in any order and with any arguments, the
requests that it has accepted, and no others, are all still found, each where its status says, and
the unplanned ones wait in the order in which they were accepted.
-/

namespace DemandTransport

/-- How a request gets from one status to the next. -/
inductive RequestStatus.Leads : RequestStatus → RequestStatus → Prop where
  | plan : Leads .unplanned .planned
  | perform : Leads .planned .performed
  /-- A request may be cancelled before it is planned. -/
  | giveUp (reason : CancelReason) : Leads .unplanned (.cancelled reason)
  /-- It may be cancelled afterwards. -/
  | callOff (reason : CancelReason) : Leads .planned (.cancelled reason)

namespace RequestEntry

/-! ## Entries -/

/-- What the fields of an entry say fits its status. -/
structure Recorded (entry : RequestEntry) : Prop where
  /-- The vehicle and the time of boarding are known together. -/
  pickup : entry.plannedPickup.isSome = entry.vehicle.isSome
  /-- The vehicle and the time of alighting are known together. -/
  dropoff : entry.plannedDropoff.isSome = entry.vehicle.isSome
  /-- They are known once the request has been planned. -/
  planned : entry.status = .planned ∨ entry.status = .performed → entry.vehicle.isSome
  /-- Exactly the passengers of performed requests have alighted. -/
  droppedOff : entry.droppedOffAt.isSome ↔ entry.status = .performed
  /-- Exactly the cancelled requests have a time of cancellation. -/
  cancelled : entry.cancelledAt.isSome ↔ ∃ reason, entry.status = .cancelled reason

theorem recorded_new (request : Request) : Recorded { request := request } :=
  ⟨rfl, rfl, by simp, by simp, by simp⟩

/-- What is noted in the entry of a request that may still change. -/
inductive Advances (entry : RequestEntry) : RequestEntry → Prop where
  /-- An unplanned request is planned. -/
  | plan (waits : entry.status = .unplanned) (vehicle : VehicleId) (pickup dropoff : Time) :
    Advances entry
      { entry with
        status := .planned, vehicle := some vehicle
        plannedPickup := some pickup, plannedDropoff := some dropoff }
  /-- A request that is unplanned or planned is cancelled. -/
  | cancel (live : entry.status = .unplanned ∨ entry.status = .planned) (reason : CancelReason)
    (t : Time) : Advances entry { entry with status := .cancelled reason, cancelledAt := some t }
  /-- The passenger of a planned request boards. -/
  | board (planned : entry.status = .planned) (waits : entry.pickedUpAt = none) (t : Time) :
    Advances entry { entry with pickedUpAt := some t }
  /-- The passenger of a planned request alights. -/
  | perform (planned : entry.status = .planned) (t : Time) :
    Advances entry { entry with status := .performed, droppedOffAt := some t }

namespace Advances

variable {entry entry' : RequestEntry}

theorem request_eq (h : entry.Advances entry') : entry'.request = entry.request := by
  cases h <;> rfl

/-- The status stays or takes one step. -/
theorem status (h : entry.Advances entry') :
    entry'.status = entry.status ∨ entry.status.Leads entry'.status := by
  cases h with
  | plan waits => exact .inr (waits ▸ .plan)
  | cancel live reason =>
    rcases live with hstatus | hstatus
    · exact .inr (hstatus ▸ .giveUp reason)
    · exact .inr (hstatus ▸ .callOff reason)
  | board => exact .inl rfl
  | perform planned => exact .inr (planned ▸ .perform)

/-- Nothing is noted in an entry that leaves the request unplanned. -/
theorem not_unplanned (h : entry.Advances entry') : entry'.status ≠ .unplanned := by
  cases h <;> simp_all

theorem recorded (h : entry.Advances entry') (hentry : entry.Recorded) : entry'.Recorded := by
  obtain ⟨hpickup, hdropoff, hplanned, hdropped, hcancelled⟩ := hentry
  cases h with
  | plan waits => exact ⟨rfl, rfl, by simp, by simpa [waits] using hdropped,
      by simpa [waits] using hcancelled⟩
  | cancel live reason =>
    refine ⟨hpickup, hdropoff, by simp, ?_, by simp⟩
    have hopen : entry.status ≠ .performed := by
      rcases live with hstatus | hstatus <;> simp [hstatus]
    simpa [hopen] using hdropped
  | board planned => exact ⟨hpickup, hdropoff, hplanned, hdropped, hcancelled⟩
  | perform planned =>
    exact ⟨hpickup, hdropoff, fun _ => hplanned (.inl planned), by simp,
      by simpa [planned] using hcancelled⟩

end Advances

end RequestEntry

namespace Registry

variable {registry registry' : Registry} {id : RequestId} {entry entry' : RequestEntry}

/-! ## What a change does -/

/-- A registry in which the entry of one request has advanced. -/
structure Turns (registry registry' : Registry) (id : RequestId) (entry entry' : RequestEntry) :
    Prop extends registry.Becomes registry' entry' where
  /-- The request had an entry. -/
  found : registry.find? id = some entry
  advances : entry.Advances entry'
  /-- The request no longer waits, and the others do as before. -/
  pending : registry'.pending = registry.pending.filter (· != id)

/-- Nothing but the one entry is changed. -/
theorem Turns.find_eq (h : registry.Turns registry' id entry entry') (other : RequestId) :
    registry'.find? other = if other = id then some entry' else registry.find? other := by
  have hid : entry'.id = id := by
    rw [RequestEntry.id, h.advances.request_eq]
    exact find?_id h.found
  exact hid ▸ h.find other

/-- A change of an active entry that is made concerns the entry that was found. -/
theorem change_ok {guard : RequestEntry → Prop} [DecidablePred guard]
    {refuse : RequestEntry → DemandError} {next : RequestEntry → Registry}
    (h : (do
      let entry ← registry.activeEntry id
      if guard entry then .error (refuse entry) else return next entry) = .ok registry') :
    ∃ entry, registry.find? id = some entry ∧ ¬guard entry ∧ registry' = next entry := by
  cases hactive : registry.activeEntry id with
  | error e => simp [hactive, bind, Except.bind] at h
  | ok entry =>
    have hfind : registry.find? id = some entry := by
      unfold activeEntry at hactive
      split at hactive <;> cases hactive
      next hnone hsome => rw [find?, hsome, Option.some_or]
    simp only [hactive, bind, Except.bind] at h
    split at h <;> cases h
    next hguard => exact ⟨entry, hfind, hguard, rfl⟩

/-- A planned request does not wait. -/
theorem Sound.pending_without (h : registry.Sound) (hfind : registry.find? id = some entry)
    (hplanned : entry.status = .planned) :
    registry.pending = registry.pending.filter (· != id) := by
  refine (List.filter_eq_self.mpr fun other hother => ?_).symm
  obtain ⟨found, hfound, hwaits⟩ := h.find_pending hother
  have hne : other ≠ id := fun heq => by
    rw [heq, hfind, Option.some.injEq] at hfound
    simp [← hfound, hplanned] at hwaits
  simpa using hne

/-- An entry that is planned notes its vehicle and the times it is told. -/
theorem Sound.markPlanned_ok {vehicle : VehicleId} {pickup dropoff : Time} (h : registry.Sound)
    (hok : registry.markPlanned id vehicle pickup dropoff = .ok registry') :
    ∃ entry, registry.Turns registry' id entry
      { entry with
        status := .planned, vehicle := some vehicle
        plannedPickup := some pickup, plannedDropoff := some dropoff } := by
  obtain ⟨entry, hfind, hguard, hresult⟩ := change_ok hok
  have hstatus : entry.status = .unplanned := not_not.mp hguard
  obtain ⟨_, hsame, hbecomes⟩ := h.markPlanned hfind hstatus vehicle pickup dropoff
  cases hok.symm.trans hsame
  exact ⟨entry, hbecomes, hfind, .plan hstatus vehicle pickup dropoff, hresult ▸ rfl⟩

theorem Sound.markCancelled_ok {reason : CancelReason} {t : Time} (h : registry.Sound)
    (hok : registry.markCancelled id reason t = .ok registry') :
    ∃ entry, registry.Turns registry' id entry
      { entry with status := .cancelled reason, cancelledAt := some t } := by
  obtain ⟨entry, hfind, hguard, hresult⟩ := change_ok hok
  have hstatus : entry.status = .unplanned ∨ entry.status = .planned := by
    rwa [not_and_or, not_not, not_not] at hguard
  obtain ⟨_, hsame, hbecomes⟩ := h.markCancelled hfind hstatus reason t
  cases hok.symm.trans hsame
  exact ⟨entry, hbecomes, hfind, .cancel hstatus reason t, hresult ▸ rfl⟩

theorem Sound.markPickedUp_ok {t : Time} (h : registry.Sound)
    (hok : registry.markPickedUp id t = .ok registry') :
    ∃ entry, registry.Turns registry' id entry { entry with pickedUpAt := some t } := by
  obtain ⟨entry, hfind, hguard, hresult⟩ := change_ok hok
  obtain ⟨hplanned, hwaits⟩ : entry.status = .planned ∧ entry.pickedUpAt = none := by
    simpa [not_or] using hguard
  obtain ⟨_, hsame, hbecomes⟩ := h.markPickedUp hfind hplanned hwaits t
  cases hok.symm.trans hsame
  exact ⟨entry, hbecomes, hfind, .board hplanned hwaits t,
    (hresult ▸ rfl : registry'.pending = registry.pending).trans (h.pending_without hfind hplanned)⟩

/-- An entry that is performed notes when its rider got off. -/
theorem Sound.markPerformed_ok {t : Time} (h : registry.Sound)
    (hok : registry.markPerformed id t = .ok registry') :
    ∃ entry, registry.Turns registry' id entry
      { entry with status := .performed, droppedOffAt := some t } := by
  obtain ⟨entry, hfind, hguard, hresult⟩ := change_ok hok
  have hplanned : entry.status = .planned := not_not.mp hguard
  obtain ⟨_, hsame, hbecomes⟩ := h.markPerformed hfind hplanned t
  cases hok.symm.trans hsame
  exact ⟨entry, hbecomes, hfind, .perform hplanned t,
    (hresult ▸ rfl : registry'.pending = registry.pending).trans (h.pending_without hfind hplanned)⟩

/-- A request that is registered waits behind the others. -/
theorem submit_pending {request : Request} (hok : registry.submit request = .ok registry') :
    registry'.pending = registry.pending ++ [request.id] := by
  unfold submit at hok
  split at hok
  · cases hok
  · dsimp only at hok
    split at hok
    · split at hok <;> cases hok
      rfl
    · cases hok
      rfl

/-! ## Calls -/

/-- A call that may change a registry. -/
inductive Call where
  | submit (request : Request)
  | markPlanned (id : RequestId) (vehicle : VehicleId) (pickup dropoff : Time)
  | markCancelled (id : RequestId) (reason : CancelReason) (t : Time)
  | markPickedUp (id : RequestId) (t : Time)
  | markPerformed (id : RequestId) (t : Time)

namespace Call

/-- The change that is called for. -/
def change : Call → Registry → Except DemandError Registry
  | submit request, registry => registry.submit request
  | markPlanned id vehicle pickup dropoff, registry =>
    registry.markPlanned id vehicle pickup dropoff
  | markCancelled id reason t, registry => registry.markCancelled id reason t
  | markPickedUp id t, registry => registry.markPickedUp id t
  | markPerformed id t, registry => registry.markPerformed id t

/-- Make a call, whatever it answers. -/
def perform : Call → Action DemandError Registry Unit
  | submit request => InPlace.submit request
  | markPlanned id vehicle pickup dropoff => InPlace.markPlanned id vehicle pickup dropoff
  | markCancelled id reason t => InPlace.markCancelled id reason t
  | markPickedUp id t => InPlace.markPickedUp id t
  | markPerformed id t => InPlace.markPerformed id t

/-- The registry that a call leaves. -/
def after (call : Call) (registry : Registry) : Registry := (call.perform.outcome registry).2

/-- The registry after some calls, each made on what the one before it left. -/
def performAll (calls : List Call) (registry : Registry) : Registry :=
  calls.foldl (fun registry call => call.after registry) registry

/-- The request that is accepted by a call, if there is one. -/
def accepted (registry : Registry) : Call → List Request
  | submit request => if (registry.submit request).isOk then [request] else []
  | _ => []

/-- The requests that are accepted by some calls, in this order. -/
def acceptedAll : List Call → Registry → List Request
  | [], _ => []
  | call :: rest, registry => call.accepted registry ++ acceptedAll rest (call.after registry)

variable {call : Call}

/-- What is called for is done entirely or not at all. -/
theorem perform_eq (call : Call) : call.perform = Action.change call.change := by
  cases call with
  | submit request => exact InPlace.submit_eq request
  | markPlanned id vehicle pickup dropoff => exact InPlace.markPlanned_eq id vehicle pickup dropoff
  | markCancelled id reason t => exact InPlace.markCancelled_eq id reason t
  | markPickedUp id t => exact InPlace.markPickedUp_eq id t
  | markPerformed id t => exact InPlace.markPerformed_eq id t

/-- A call that is refused changes nothing: whatever it writes comes behind everything that it asks
for. -/
theorem outcome_error {e : DemandError}
    (h : call.perform.outcome registry = (.error e, registry')) : registry' = registry := by
  have hends : call.perform.Ends registry (fun _ _ => True) fun _ left => left = registry := by
    rw [perform_eq, Action.ends_change]
    split <;> trivial
  exact hends.of_error h

theorem after_of_ok (h : call.change registry = .ok registry') :
    call.after registry = registry' := by
  simp [after, perform_eq, Action.outcome, Action.change, h]

theorem after_of_error {e : DemandError} (h : call.change registry = .error e) :
    call.after registry = registry := by
  simp [after, perform_eq, Action.outcome, Action.change, h]

end Call

/-- What a call does: it accepts a request, advances one, or is refused. -/
theorem Sound.call_cases (h : registry.Sound) (call : Call) :
    (∃ request, call.accepted registry = [request] ∧ registry.find? request.id = none ∧
      registry.Becomes (call.after registry) { request := request } ∧
      (call.after registry).pending = registry.pending ++ [request.id]) ∨
    (call.accepted registry = [] ∧
      ∃ id entry entry', registry.Turns (call.after registry) id entry entry') ∨
    (call.accepted registry = [] ∧ call.after registry = registry) := by
  cases hchange : call.change registry with
  | error e =>
    refine .inr (.inr ⟨?_, Call.after_of_error hchange⟩)
    cases call with
    | submit request =>
      rw [Call.change] at hchange
      simp [Call.accepted, hchange, Except.isOk, Except.toBool]
    | markPlanned | markCancelled | markPickedUp | markPerformed => rfl
  | ok registry' =>
    rw [Call.after_of_ok hchange]
    cases call with
    | submit request =>
      rw [Call.change] at hchange
      obtain ⟨hnew, hbecomes⟩ := h.submit_ok hchange
      exact .inl ⟨request, by simp [Call.accepted, hchange, Except.isOk, Except.toBool], hnew,
        hbecomes, submit_pending hchange⟩
    | markPlanned id =>
      obtain ⟨entry, hturns⟩ := h.markPlanned_ok hchange
      exact .inr (.inl ⟨rfl, id, entry, _, hturns⟩)
    | markCancelled id =>
      obtain ⟨entry, hturns⟩ := h.markCancelled_ok hchange
      exact .inr (.inl ⟨rfl, id, entry, _, hturns⟩)
    | markPickedUp id =>
      obtain ⟨entry, hturns⟩ := h.markPickedUp_ok hchange
      exact .inr (.inl ⟨rfl, id, entry, _, hturns⟩)
    | markPerformed id =>
      obtain ⟨entry, hturns⟩ := h.markPerformed_ok hchange
      exact .inr (.inl ⟨rfl, id, entry, _, hturns⟩)

/-! ## What is known of accepted requests -/

/-- Whether a request is registered and unplanned. -/
def waits (registry : Registry) (id : RequestId) : Bool :=
  (registry.find? id).any fun entry => entry.status = .unplanned

/-- A sound registry that tells of the given requests, accepted in this order, and of no others. -/
structure TellsOf (registry : Registry) (requests : List Request) : Prop where
  sound : registry.Sound
  recorded : ∀ id entry, registry.find? id = some entry → entry.Recorded
  /-- An accepted request is found as it was submitted. -/
  kept : ∀ request ∈ requests, ∃ entry, registry.find? request.id = some entry ∧
    entry.request = request
  /-- What is found has been accepted. -/
  accepted : ∀ id entry, registry.find? id = some entry → entry.request ∈ requests
  /-- The requests that are still unplanned wait in the order in which they were accepted. -/
  pending : registry.pending = (requests.map Request.id).filter registry.waits

namespace TellsOf

variable {requests : List Request}

theorem new : TellsOf {} [] :=
  ⟨sound_empty, by simp [find?, findIn], by simp, by simp [find?, findIn], rfl⟩

/-- A new request is accepted. -/
theorem accept {request : Request} (h : registry.TellsOf requests)
    (hnew : registry.find? request.id = none)
    (hbecomes : registry.Becomes registry' { request := request })
    (hpending : registry'.pending = registry.pending ++ [request.id]) :
    registry'.TellsOf (requests ++ [request]) := by
  have hfind : ∀ id, registry'.find? id =
      if id = request.id then some { request := request } else registry.find? id := hbecomes.find
  have hother : ∀ old ∈ requests, old.id ≠ request.id := fun old hold heq => by
    obtain ⟨entry, hentry, -⟩ := h.kept old hold
    rw [heq, hnew] at hentry
    cases hentry
  refine ⟨hbecomes.sound, fun id entry hentry => ?_, fun old hold => ?_, fun id entry hentry => ?_,
    ?_⟩
  · rw [hfind] at hentry
    split at hentry
    · cases hentry
      exact RequestEntry.recorded_new request
    · exact h.recorded id entry hentry
  · rcases List.mem_append.mp hold with hold | hlast
    · rw [hfind, if_neg (hother old hold)]
      exact h.kept old hold
    · rw [List.mem_singleton.mp hlast, hfind, if_pos rfl]
      exact ⟨_, rfl, rfl⟩
  · rw [hfind] at hentry
    split at hentry
    · cases hentry
      exact List.mem_append_right _ List.mem_cons_self
    · exact List.mem_append_left _ (h.accepted id entry hentry)
  · have hsame : (requests.map Request.id).filter registry'.waits =
        (requests.map Request.id).filter registry.waits := by
      refine List.filter_congr fun id hid => ?_
      obtain ⟨old, hold, rfl⟩ := List.mem_map.mp hid
      rw [waits, hfind, if_neg (hother old hold), waits]
    have hlast : registry'.waits request.id = true := by simp [waits, hfind]
    rw [hpending, h.pending, List.map_append, List.filter_append, hsame]
    simp [hlast]

/-- The entry of a request advances. -/
theorem turn (h : registry.TellsOf requests) (hturns : registry.Turns registry' id entry entry') :
    registry'.TellsOf requests := by
  have hfind := hturns.find_eq
  refine ⟨hturns.sound, fun other found hfound => ?_, fun request hrequest => ?_,
    fun other found hfound => ?_, ?_⟩
  · rw [hfind] at hfound
    split at hfound
    · cases hfound
      exact hturns.advances.recorded (h.recorded id entry hturns.found)
    · exact h.recorded other found hfound
  · obtain ⟨found, hfound, hsame⟩ := h.kept request hrequest
    rw [hfind]
    split
    next heq =>
      rw [heq, hturns.found, Option.some.injEq] at hfound
      exact ⟨entry', rfl, hturns.advances.request_eq.trans (hfound ▸ hsame)⟩
    next => exact ⟨found, hfound, hsame⟩
  · rw [hfind] at hfound
    split at hfound
    · cases hfound
      exact hturns.advances.request_eq ▸ h.accepted id entry hturns.found
    · exact h.accepted other found hfound
  · rw [hturns.pending, h.pending, List.filter_filter]
    refine List.filter_congr fun other _ => ?_
    by_cases heq : other = id
    · simp [waits, hfind, heq, hturns.advances.not_unplanned]
    · simp [waits, hfind, heq]

/-- A call, made or refused, keeps the registry telling of what has been accepted. -/
theorem after (h : registry.TellsOf requests) (call : Call) :
    (call.after registry).TellsOf (requests ++ call.accepted registry) := by
  rcases h.sound.call_cases call with ⟨request, haccepted, hnew, hbecomes, hpending⟩ |
    ⟨haccepted, id, entry, entry', hturns⟩ | ⟨haccepted, hsame⟩
  · rw [haccepted]
    exact h.accept hnew hbecomes hpending
  · rw [haccepted, List.append_nil]
    exact h.turn hturns
  · rwa [haccepted, List.append_nil, hsame]

theorem performAll (h : registry.TellsOf requests) (calls : List Call) :
    (Call.performAll calls registry).TellsOf (requests ++ Call.acceptedAll calls registry) := by
  induction calls generalizing registry requests with
  | nil => simpa [Call.acceptedAll, Call.performAll] using h
  | cons call rest ih =>
    rw [Call.acceptedAll, ← List.append_assoc]
    exact ih (h.after call)

end TellsOf

/-! ## Any calls on a new registry -/

/-- How the requests that a registry has accepted, in this order, are kept in its three lists. -/
structure Keeps (registry : Registry) (requests : List Request) : Prop where
  /-- No active request is archived. -/
  disjoint : ∀ a ∈ registry.active, ∀ b ∈ registry.archive, a.id ≠ b.id
  /-- The archive has exactly the performed and cancelled requests. -/
  archived : ∀ entry ∈ registry.active ++ registry.archive, entry ∈ registry.archive ↔
    entry.status = .performed ∨ ∃ reason, entry.status = .cancelled reason
  /-- Exactly the unplanned requests wait. -/
  pending_iff : ∀ id, id ∈ registry.pending ↔
    ∃ entry, registry.get id = .ok entry ∧ entry.status = .unplanned
  /-- They wait in the order in which they were accepted. -/
  pending : registry.pending = (requests.map Request.id).filter registry.waits
  /-- None of them waits twice. -/
  pending_nodup : registry.pending.Nodup
  /-- An accepted request is found as it was submitted. -/
  kept : ∀ request ∈ requests, ∃ entry, registry.get request.id = .ok entry ∧
    entry.request = request
  /-- Whatever is found is an accepted request. -/
  accepted : ∀ id entry, registry.get id = .ok entry → entry.id = id ∧ entry.request ∈ requests
  /-- What is noted about a request fits its status. -/
  recorded : ∀ entry ∈ registry.active ++ registry.archive, entry.Recorded

/-- An archived entry is found under its identifier. -/
theorem Sound.find_archive (h : registry.Sound) (hmem : entry ∈ registry.archive) :
    registry.find? entry.id = some entry := by
  obtain ⟨a, b, hsplit⟩ := List.append_of_mem hmem
  have hdistinct := h.distinct
  rw [hsplit, ← List.append_assoc, List.map_append, List.map_cons] at hdistinct
  have hcross := (List.nodup_append.mp hdistinct).2.2
  have hbefore : ∀ e ∈ registry.active ++ a, e.id ≠ entry.id := fun e he =>
    hcross _ (List.mem_map_of_mem he) _ List.mem_cons_self
  rw [find?, ← findIn_append, hsplit, ← List.append_assoc, findIn_split hbefore, if_pos rfl]

theorem get_eq_ok_iff : registry.get id = .ok entry ↔ registry.find? id = some entry := by
  unfold get
  cases registry.find? id <;> simp

/-- Exactly the unplanned requests wait. -/
theorem TellsOf.mem_pending_iff {requests : List Request} (h : registry.TellsOf requests) :
    id ∈ registry.pending ↔
      ∃ entry, registry.get id = .ok entry ∧ entry.status = .unplanned := by
  simp only [get_eq_ok_iff]
  refine ⟨h.sound.find_pending, ?_⟩
  rintro ⟨entry, hfind, hstatus⟩
  have hid : entry.request.id = id := find?_id hfind
  rw [h.pending, List.mem_filter]
  refine ⟨List.mem_map.mpr ⟨entry.request, h.accepted id entry hfind, hid⟩, ?_⟩
  simp [waits, hfind, hstatus]

/-- So the lists of a registry are kept as they should be. -/
theorem TellsOf.keeps {requests : List Request} (h : registry.TellsOf requests) :
    registry.Keeps requests := by
  have hdistinct := h.sound.distinct
  rw [List.map_append] at hdistinct
  have hdisjoint : ∀ a ∈ registry.active, ∀ b ∈ registry.archive, a.id ≠ b.id := fun a ha b hb =>
    (List.nodup_append.mp hdistinct).2.2 _ (List.mem_map_of_mem ha) _ (List.mem_map_of_mem hb)
  refine ⟨hdisjoint, fun entry hentry => ?_, fun _ => h.mem_pending_iff, h.pending,
    h.sound.pending_nodup, fun request hrequest => ?_, fun id entry hget => ?_,
    fun entry hentry => ?_⟩
  · constructor
    · intro hmem
      exact (h.sound.archive entry hmem).imp_left And.left
    · intro hfinal
      refine (List.mem_append.mp hentry).resolve_left fun hactive => ?_
      rcases h.sound.active entry hactive with ⟨hstatus, -⟩ | ⟨hstatus, -⟩ <;>
        simp [hstatus] at hfinal
  · obtain ⟨entry, hentry, hsame⟩ := h.kept request hrequest
    exact ⟨entry, get_eq_ok_iff.mpr hentry, hsame⟩
  · have hfind := get_eq_ok_iff.mp hget
    exact ⟨find?_id hfind, h.accepted id entry hfind⟩
  · rcases List.mem_append.mp hentry with hactive | harchive
    · exact h.recorded _ entry (h.sound.find_active hactive)
    · exact h.recorded _ entry (h.sound.find_archive harchive)

/-- What is found before a call is found afterwards, and its status has moved as it may. -/
theorem Sound.after_find (h : registry.Sound) (call : Call)
    (hfind : registry.find? id = some entry) :
    ∃ entry', (call.after registry).find? id = some entry' ∧ entry'.request = entry.request ∧
      (entry'.status = entry.status ∨ entry.status.Leads entry'.status) := by
  rcases h.call_cases call with ⟨request, -, hnew, hbecomes, -⟩ |
    ⟨-, turned, old, entry', hturns⟩ | ⟨-, hsame⟩
  · have hne : id ≠ request.id := fun heq => by simp [heq, hnew] at hfind
    refine ⟨entry, ?_, rfl, .inl rfl⟩
    exact (hbecomes.find id).trans ((if_neg hne).trans hfind)
  · rw [hturns.find_eq]
    split
    next heq =>
      rw [heq, hturns.found, Option.some.injEq] at hfind
      exact ⟨entry', rfl, hfind ▸ hturns.advances.request_eq, hfind ▸ hturns.advances.status⟩
    next => exact ⟨entry, hfind, rfl, .inl rfl⟩
  · rw [hsame]
    exact ⟨entry, hfind, rfl, .inl rfl⟩

/-- What is found only after a call is unplanned. -/
theorem Sound.after_new (h : registry.Sound) (call : Call) (hnone : registry.find? id = none)
    (hfind : (call.after registry).find? id = some entry) : entry.status = .unplanned := by
  rcases h.call_cases call with ⟨request, -, -, hbecomes, -⟩ |
    ⟨-, turned, old, entry', hturns⟩ | ⟨-, hsame⟩
  · rw [hbecomes.find] at hfind
    split at hfind
    · cases hfind
      rfl
    · simp [hnone] at hfind
  · rw [hturns.find_eq] at hfind
    split at hfind
    next heq =>
      rw [heq, hturns.found] at hnone
      cases hnone
    next => simp [hnone] at hfind
  · simp [hsame, hnone] at hfind

/-- Whatever calls have been made on a new registry, it keeps all requests that it has accepted, and
a further call advances statuses only or, when it is refused, changes nothing. -/
theorem keeps_performAll (calls : List Call) :
    let registry := Call.performAll calls {}
    registry.Keeps (Call.acceptedAll calls {}) ∧
    (∀ (call : Call) id entry, registry.find? id = some entry →
      ∃ entry', (call.after registry).find? id = some entry' ∧ entry'.request = entry.request ∧
        (entry'.status = entry.status ∨ entry.status.Leads entry'.status)) ∧
    (∀ (call : Call) id entry, registry.find? id = none →
      (call.after registry).find? id = some entry → entry.status = .unplanned) ∧
    ∀ (call : Call) e registry', call.perform.outcome registry = (.error e, registry') →
      registry' = registry := by
  intro registry
  have h : registry.TellsOf (Call.acceptedAll calls {}) := by
    simpa using TellsOf.new.performAll calls
  exact ⟨h.keeps, fun call _ _ => h.sound.after_find call, fun call _ _ => h.sound.after_new call,
    fun _ _ _ => Call.outcome_error⟩

/-- Of three requests one is served, one is given up after it was planned, and one still waits. A
request that is known is not accepted again, and final ones do not change any more. -/
theorem keeps_performAll_threeRequests :
    let request (id : Nat) : Request := ⟨⟨id⟩, ⟨id⟩, ⟨0⟩, ⟨1⟩, .zero, none⟩
    let calls : List Call :=
      [.submit (request 0), .submit (request 1), .submit (request 2), .submit (request 1),
        .markPlanned ⟨0⟩ ⟨0⟩ (.ofSecs 10) (.ofSecs 50), .markPickedUp ⟨0⟩ (.ofSecs 20),
        .markPerformed ⟨2⟩ (.ofSecs 30), .markPerformed ⟨0⟩ (.ofSecs 60),
        .markPlanned ⟨1⟩ ⟨0⟩ (.ofSecs 80) (.ofSecs 90),
        .markCancelled ⟨1⟩ (.withdrawn "late") (.ofSecs 70), .markPickedUp ⟨1⟩ (.ofSecs 85)]
    let again : Call := .markCancelled ⟨0⟩ .expired (.ofSecs 90)
    let registry := Call.performAll calls {}
    registry.pending = [⟨2⟩] ∧ registry.archive.map RequestEntry.id = [⟨0⟩, ⟨1⟩] ∧
      (∃ entry, registry.get ⟨1⟩ = .ok entry ∧ entry.request = request 1) ∧
      (∃ entry, registry.get ⟨2⟩ = .ok entry ∧ entry.status = .unplanned) ∧
      (∀ id entry, registry.get id = .ok entry →
        entry.request ∈ [request 0, request 1, request 2]) ∧
      ∃ e, again.perform.outcome registry = (.error e, registry) := by
  intro request calls again registry
  obtain ⟨hkeeps, -, -, hrefused⟩ := keeps_performAll calls
  have haccepted : Call.acceptedAll calls {} = [request 0, request 1, request 2] := by decide
  rw [haccepted] at hkeeps
  have hpending : registry.pending = [⟨2⟩] := by decide
  refine ⟨hpending, by decide, hkeeps.kept (request 1) (by simp), ?_, ?_, ?_⟩
  · exact (hkeeps.pending_iff ⟨2⟩).mp (by simp [registry, hpending])
  · exact fun id entry hget => (hkeeps.accepted id entry hget).2
  · have hfails : (again.perform.outcome registry).1.isOk = false := by decide +kernel
    rcases hout : again.perform.outcome registry with ⟨result, left⟩
    cases result with
    | ok _ => simp [hout, Except.isOk, Except.toBool] at hfails
    | error e => exact ⟨e, by rw [hrefused again e left hout]⟩

end Registry

end DemandTransport
