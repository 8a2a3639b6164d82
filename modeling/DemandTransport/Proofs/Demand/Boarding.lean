import DemandTransport.Proofs.Demand.Histories

/-!
# Who is on board

Boarding is noted beside the status of a request, which stays planned until the passenger has
alighted. A call that goes by the status alone can therefore cancel a request whose passenger is on
board, or let a passenger alight who has not boarded. What a registry says about the passenger of a
request makes sense exactly as long as neither has been done.
-/

namespace DemandTransport

/-- What is noted about boarding fits the status of a request. -/
structure RequestEntry.Consistent (entry : RequestEntry) : Prop where
  /-- Nobody has boarded whose request is cancelled. -/
  cancelled : ∀ reason, entry.status = .cancelled reason → entry.pickedUpAt = none
  /-- Everybody has boarded who has alighted. -/
  performed : entry.status = .performed → entry.pickedUpAt.isSome

/-- The status of a request that may still change leaves open who has boarded. -/
theorem RequestEntry.consistent_of_open {entry : RequestEntry}
    (hopen : entry.status = .unplanned ∨ entry.status = .planned) : entry.Consistent := by
  rcases hopen with hstatus | hstatus <;> exact ⟨by simp [hstatus], by simp [hstatus]⟩

theorem RequestEntry.consistent_cancelled_iff {entry : RequestEntry} {reason : CancelReason}
    {t : Time} :
    Consistent { entry with status := .cancelled reason, cancelledAt := some t } ↔
      entry.pickedUpAt = none :=
  ⟨fun h => h.cancelled reason rfl, fun h => ⟨fun _ _ => h, by simp⟩⟩

theorem RequestEntry.consistent_performed_iff {entry : RequestEntry} {t : Time} :
    Consistent { entry with status := .performed, droppedOffAt := some t } ↔
      entry.pickedUpAt.isSome :=
  ⟨fun h => h.performed rfl, fun h => ⟨by simp, fun _ => h⟩⟩

/-- A passenger who has not alighted is on board after boarding. -/
theorem RequestEntry.Recorded.isOnboard_eq {entry : RequestEntry} (h : entry.Recorded)
    (hopen : entry.status ≠ .performed) : entry.isOnboard = entry.pickedUpAt.isSome := by
  have hnone : entry.droppedOffAt = none := by simpa [hopen] using h.droppedOff
  simp [isOnboard, hnone]

namespace Registry

namespace Call

/-- A call disregards the passenger of a planned request when it cancels the request while the
passenger is on board, or lets the passenger alight who is not. -/
def Disregards (registry : Registry) (id : RequestId) : Call → Prop
  | markCancelled other _ _ => id = other ∧ ∃ entry, registry.find? id = some entry ∧
      entry.status = .planned ∧ entry.isOnboard = true
  | markPerformed other _ => id = other ∧ ∃ entry, registry.find? id = some entry ∧
      entry.status = .planned ∧ entry.isOnboard = false
  | _ => False

/-- One of some calls, made one after the other, disregards the passenger of a request. -/
def DisregardedAmong (id : RequestId) : List Call → Registry → Prop
  | [], _ => False
  | call :: rest, registry => call.Disregards registry id ∨ DisregardedAmong id rest
      (call.after registry)

end Call

variable {registry registry' : Registry} {requests : List Request} {id : RequestId}

/-- What is known of the passenger of a request, if the request is registered, is consistent. -/
def ConsistentAt (registry : Registry) (id : RequestId) : Prop :=
  ∀ entry, registry.find? id = some entry → entry.Consistent

/-! ## One call -/

/-- Only the entry that is advanced can become inconsistent. -/
theorem Turns.consistentAt_iff {turned : RequestId} {entry entry' : RequestEntry}
    (h : registry.Turns registry' turned entry entry') :
    registry'.ConsistentAt id ↔
      if id = turned then entry'.Consistent else registry.ConsistentAt id := by
  unfold ConsistentAt
  rw [h.find_eq]
  split <;> simp

/-- An entry that is advanced may still change. -/
theorem Turns.isOpen {turned : RequestId} {entry entry' : RequestEntry}
    (h : registry.Turns registry' turned entry entry') :
    entry.status = .unplanned ∨ entry.status = .planned := by
  cases h.advances with
  | plan waits => exact .inl waits
  | cancel live => exact live
  | board planned => exact .inr planned
  | perform planned => exact .inr planned

/-- A call that concerns one request is judged by the entry of that request. -/
theorem Turns.consistentAt_after_iff {turned : RequestId} {entry entry' : RequestEntry}
    {call : Call} (h : registry.Turns registry' turned entry entry')
    (hconcerns : ∀ other, call.Disregards registry other → other = turned)
    (hentry : entry'.Consistent ↔ ¬call.Disregards registry turned) :
    registry'.ConsistentAt id ↔ registry.ConsistentAt id ∧ ¬call.Disregards registry id := by
  rw [h.consistentAt_iff]
  split
  next hid =>
    have hbefore : registry.ConsistentAt id := fun found hfound => by
      obtain rfl : entry = found := by simpa [hid, h.found] using hfound
      exact RequestEntry.consistent_of_open h.isOpen
    rw [hid] at hbefore ⊢
    simp [hentry, hbefore]
  next hid =>
    have hregards : ¬call.Disregards registry id := fun hcall => hid (hconcerns id hcall)
    simp [hregards]

/-- Only a planned request is performed. -/
theorem Turns.was_planned {turned : RequestId} {entry : RequestEntry} {t : Time}
    (h : registry.Turns registry' turned entry
      { entry with status := .performed, droppedOffAt := some t }) : entry.status = .planned := by
  rcases h.advances.status with hsame | hleads
  · rcases h.isOpen with hstatus | hstatus <;> simp [hstatus] at hsame
  · generalize entry.status = status at hleads
    cases hleads
    rfl

/-- A new entry is consistent, and the other ones stay as they are. -/
theorem Sound.consistentAt_submit {request : Request} (h : registry.Sound)
    (hchange : (Call.submit request).change registry = .ok registry') :
    registry'.ConsistentAt id ↔ registry.ConsistentAt id := by
  obtain ⟨hnew, hbecomes⟩ := h.submit_ok hchange
  have hfind : registry'.find? id =
      if id = request.id then some { request := request } else registry.find? id :=
    hbecomes.find id
  have hwaits : RequestEntry.Consistent { request := request } :=
    RequestEntry.consistent_of_open (.inl rfl)
  by_cases hid : id = request.id
  · subst hid
    simp [ConsistentAt, hfind, hnew, hwaits]
  · simp [ConsistentAt, hfind, hid]

/-- A call that disregards a passenger is made all the same. -/
theorem Sound.exists_disregarding {call : Call} (h : registry.Sound)
    (hcall : call.Disregards registry id) :
    ∃ registry', call.change registry = .ok registry' := by
  cases call with
  | submit | markPlanned | markPickedUp => exact hcall.elim
  | markCancelled other reason t =>
    obtain ⟨rfl, entry, hfind, hplanned, -⟩ := hcall
    obtain ⟨registry', hok, -⟩ := h.markCancelled hfind (.inr hplanned) reason t
    exact ⟨registry', hok⟩
  | markPerformed other t =>
    obtain ⟨rfl, entry, hfind, hplanned, -⟩ := hcall
    obtain ⟨registry', hok, -⟩ := h.markPerformed hfind hplanned t
    exact ⟨registry', hok⟩

namespace TellsOf

/-- What a call leaves is consistent if it was so before and the passenger is not disregarded. -/
theorem consistentAt_after_iff (h : registry.TellsOf requests) (call : Call) :
    (call.after registry).ConsistentAt id ↔
      registry.ConsistentAt id ∧ ¬call.Disregards registry id := by
  cases hchange : call.change registry with
  | error e =>
    have hregards : ¬call.Disregards registry id := fun hcall => by
      obtain ⟨registry', hok⟩ := h.sound.exists_disregarding hcall
      simp [hchange] at hok
    simp [Call.after_of_error hchange, hregards]
  | ok registry' =>
    rw [Call.after_of_ok hchange]
    cases call with
    | submit request =>
      rw [h.sound.consistentAt_submit hchange]
      exact (and_iff_left fun hcall => hcall.elim).symm
    | markPlanned turned vehicle pickup dropoff =>
      obtain ⟨entry, hturns⟩ := h.sound.markPlanned_ok hchange
      refine hturns.consistentAt_after_iff (fun other hcall => hcall.elim) ?_
      exact iff_of_true (RequestEntry.consistent_of_open (.inr rfl)) fun hcall => hcall.elim
    | markCancelled turned reason t =>
      obtain ⟨entry, hturns⟩ := h.sound.markCancelled_ok hchange
      refine hturns.consistentAt_after_iff (fun other hcall => hcall.1) ?_
      have hopen : entry.status ≠ .performed := by
        rcases hturns.isOpen with hstatus | hstatus <;> simp [hstatus]
      have honboard := (h.recorded turned entry hturns.found).isOnboard_eq hopen
      rw [RequestEntry.consistent_cancelled_iff]
      rcases h.sound.isOpen hturns.found hturns.isOpen with ⟨hstatus, hwaits⟩ | ⟨hstatus, -⟩
      · simp [Call.Disregards, hturns.found, hstatus, hwaits]
      · simp [Call.Disregards, hturns.found, hstatus, honboard]
    | markPickedUp turned t =>
      obtain ⟨entry, hturns⟩ := h.sound.markPickedUp_ok hchange
      refine hturns.consistentAt_after_iff (fun other hcall => hcall.elim) ?_
      exact iff_of_true (RequestEntry.consistent_of_open hturns.isOpen) fun hcall => hcall.elim
    | markPerformed turned t =>
      obtain ⟨entry, hturns⟩ := h.sound.markPerformed_ok hchange
      refine hturns.consistentAt_after_iff (fun other hcall => hcall.1) ?_
      have hplanned := hturns.was_planned
      have honboard := (h.recorded turned entry hturns.found).isOnboard_eq (by simp [hplanned])
      rw [RequestEntry.consistent_performed_iff]
      simp [Call.Disregards, hturns.found, hplanned, honboard, Option.isSome_iff_ne_none]

/-- So is what a number of calls leave. -/
theorem consistentAt_performAll_iff (h : registry.TellsOf requests) (calls : List Call) :
    (Call.performAll calls registry).ConsistentAt id ↔
      registry.ConsistentAt id ∧ ¬Call.DisregardedAmong id calls registry := by
  induction calls generalizing registry requests with
  | nil => simp [Call.performAll, Call.DisregardedAmong]
  | cons call rest ih =>
    have hrest := ih (h.after call)
    rw [h.consistentAt_after_iff, and_assoc, ← not_or] at hrest
    exact hrest

end TellsOf

/-! ## Any calls on a new registry -/

/-- An entry is consistent if and only if its request, when somebody is on board, is planned and
still active, and its passenger, having alighted, has boarded. -/
theorem TellsOf.consistent_iff {entry : RequestEntry} (h : registry.TellsOf requests)
    (hentry : entry ∈ registry.active ++ registry.archive) :
    entry.Consistent ↔
      (entry.isOnboard = true → entry.status = .planned ∧ entry ∈ registry.active) ∧
      (entry.droppedOffAt.isSome → entry.pickedUpAt.isSome) := by
  have hrecorded := h.keeps.recorded entry hentry
  constructor
  · intro hentries
    refine ⟨fun honboard => ?_, fun halighted =>
      hentries.performed (hrecorded.droppedOff.mp halighted)⟩
    obtain ⟨hboarded, hriding⟩ : entry.pickedUpAt.isSome ∧ entry.droppedOffAt = none := by
      simpa [RequestEntry.isOnboard] using honboard
    have hactive : entry ∈ registry.active := by
      refine (List.mem_append.mp hentry).resolve_right fun harchive => ?_
      rcases h.sound.archive entry harchive with ⟨hperformed, -⟩ | ⟨reason, hcancelled⟩
      · simpa [hriding] using hrecorded.droppedOff.mpr hperformed
      · simp [hentries.cancelled reason hcancelled] at hboarded
    rcases h.sound.active entry hactive with ⟨-, hwaits⟩ | ⟨hplanned, -⟩
    · simp [hwaits] at hboarded
    · exact ⟨hplanned, hactive⟩
  · rintro ⟨honboard, halighted⟩
    refine ⟨fun reason hcancelled => ?_, fun hperformed =>
      halighted (hrecorded.droppedOff.mpr hperformed)⟩
    by_contra hboarded
    have hriding := hrecorded.isOnboard_eq (by simp [hcancelled])
    have hplanned := (honboard (by rw [hriding]; exact Option.isSome_iff_ne_none.mpr hboarded)).1
    simp [hcancelled] at hplanned

/-- Whatever calls are made on a new registry, whoever is on board has a planned request that is
still active, and whoever has alighted has boarded, if and only if no call has disregarded the
passenger of the request. -/
theorem onboard_iff_regarded (calls : List Call) :
    let registry := Call.performAll calls {}
    ∀ entry ∈ registry.active ++ registry.archive,
      (entry.isOnboard = true → entry.status = .planned ∧ entry ∈ registry.active) ∧
        (entry.droppedOffAt.isSome → entry.pickedUpAt.isSome) ↔
      ¬Call.DisregardedAmong entry.id calls {} := by
  intro registry entry hentry
  have h : registry.TellsOf (Call.acceptedAll calls {}) := by
    simpa using TellsOf.new.performAll calls
  have hfind : registry.find? entry.id = some entry := by
    rcases List.mem_append.mp hentry with hactive | harchive
    · exact h.sound.find_active hactive
    · exact h.sound.find_archive harchive
  have hnone : ConsistentAt {} entry.id := fun found hfound => by simp [find?, findIn] at hfound
  have hcalls : registry.ConsistentAt entry.id ↔
      ConsistentAt {} entry.id ∧ ¬Call.DisregardedAmong entry.id calls {} :=
    TellsOf.new.consistentAt_performAll_iff calls
  have hreached : registry.ConsistentAt entry.id ↔ entry.Consistent := by
    simp [ConsistentAt, hfind]
  rw [← h.consistent_iff hentry, ← hreached, hcalls]
  exact and_iff_right hnone

/-- Two rides are planned. The passenger of the first one boards, and the request is cancelled all
the same; the passenger of the second one alights without having boarded. -/
def Call.noShows : List Call :=
  let ride (id : RequestId) : Request := ⟨id, ⟨0⟩, ⟨0⟩, ⟨1⟩, .zero, none⟩
  [.submit (ride ⟨0⟩), .submit (ride ⟨1⟩),
    .markPlanned ⟨0⟩ ⟨0⟩ (.ofSecs 100) (.ofSecs 400),
    .markPlanned ⟨1⟩ ⟨1⟩ (.ofSecs 100) (.ofSecs 400),
    .markPickedUp ⟨0⟩ (.ofSecs 105),
    .markCancelled ⟨0⟩ (.withdrawn "no-show") (.ofSecs 110),
    .markPerformed ⟨1⟩ (.ofSecs 410)]

/-- The passenger of a cancelled request is still on board, because the passenger has been
disregarded. -/
theorem onboard_iff_regarded_noShows :
    ∃ entry ∈ (Call.performAll Call.noShows {}).active ++
        (Call.performAll Call.noShows {}).archive,
      entry.status = .cancelled (.withdrawn "no-show") ∧ entry.isOnboard = true ∧
        Call.DisregardedAmong entry.id Call.noShows {} := by
  obtain ⟨entry, hentry, hcancelled, honboard⟩ :
      ∃ entry ∈ (Call.performAll Call.noShows {}).active ++
          (Call.performAll Call.noShows {}).archive,
        entry.status = .cancelled (.withdrawn "no-show") ∧ entry.isOnboard = true := by
    decide
  refine ⟨entry, hentry, hcancelled, honboard, ?_⟩
  by_contra hregarded
  have hplanned :=
    (((onboard_iff_regarded Call.noShows entry hentry).mpr hregarded).1 honboard).1
  simp [hcancelled] at hplanned

/-- A passenger who has boarded stays on board when the request is cancelled, and a passenger who
has not boarded can alight. -/
theorem onboard_though_cancelled :
    let registry := Call.performAll Call.noShows {}
    ¬(∀ entry ∈ registry.active ++ registry.archive,
        entry.isOnboard = true → entry.status = .planned ∧ entry ∈ registry.active) ∧
      ¬∀ entry ∈ registry.active ++ registry.archive,
        entry.droppedOffAt.isSome → entry.pickedUpAt.isSome := by
  decide

end Registry

end DemandTransport
