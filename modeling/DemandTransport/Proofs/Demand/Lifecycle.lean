import DemandTransport.Demand.Registry
import DemandTransport.Proofs.Action
import Mathlib.Data.List.Nodup

/-!
# The life of a request

A registry is sound when every request has one entry, the active entries are unplanned or planned
with a vehicle, the archived ones are performed or cancelled, and the queue names the unplanned ones
in order. Every change that the registry makes keeps it sound and gives a new entry to one request
only. Which changes it makes depends on the entry of that request alone.
-/

namespace DemandTransport.Registry

/-- The entry of a request that may still change: it waits for a vehicle and nobody has boarded, or
it has a vehicle. -/
def IsOpen (entry : RequestEntry) : Prop :=
  (entry.status = .unplanned ∧ entry.pickedUpAt = none) ∨
    (entry.status = .planned ∧ entry.vehicle.isSome)

/-- The entry of a request that has been performed by a vehicle or cancelled. -/
def IsFinal (entry : RequestEntry) : Prop :=
  (entry.status = .performed ∧ entry.vehicle.isSome) ∨ ∃ reason, entry.status = .cancelled reason

/-- The conditions on registries. -/
structure Sound (registry : Registry) : Prop where
  /-- No request has two entries. -/
  distinct : ((registry.active ++ registry.archive).map RequestEntry.id).Nodup
  /-- Active requests may still change. -/
  active : ∀ entry ∈ registry.active, IsOpen entry
  /-- Archived ones may not. -/
  archive : ∀ entry ∈ registry.archive, IsFinal entry
  /-- The queue names the unplanned requests in order. -/
  queue : registry.unplanned =
    (registry.active.filter fun entry => entry.status = .unplanned).map RequestEntry.id

/-- A registry without requests is sound. -/
theorem sound_empty : Sound {} := ⟨by simp, by simp, by simp, rfl⟩

theorem IsOpen.not_final {entry : RequestEntry} (h : IsOpen entry) : ¬IsFinal entry := by
  rintro (⟨hperformed, -⟩ | ⟨reason, hcancelled⟩)
  · rcases h with ⟨hstatus, -⟩ | ⟨hstatus, -⟩ <;> simp [hstatus] at hperformed
  · rcases h with ⟨hstatus, -⟩ | ⟨hstatus, -⟩ <;> simp [hstatus] at hcancelled

theorem IsOpen.vehicle {entry : RequestEntry} (h : IsOpen entry)
    (hstatus : entry.status = .planned) : entry.vehicle.isSome := by
  rcases h with ⟨hunplanned, -⟩ | ⟨-, hvehicle⟩
  · simp [hstatus] at hunplanned
  · exact hvehicle

/-! ## Finding entries -/

variable {registry : Registry} {id other : RequestId} {entry : RequestEntry}

theorem findIn_eq_some {entries : List RequestEntry} (h : findIn entries id = some entry) :
    entry ∈ entries ∧ entry.id = id := by
  have hid := List.find?_some h
  exact ⟨List.mem_of_find?_eq_some h, by simpa using hid⟩

theorem findIn_eq_none {entries : List RequestEntry} :
    findIn entries id = none ↔ ∀ entry ∈ entries, entry.id ≠ id := by
  simp [findIn, List.find?_eq_none]

theorem findIn_append (a b : List RequestEntry) :
    findIn (a ++ b) id = (findIn a id).or (findIn b id) :=
  List.find?_append

/-- An entry is found under its identifier, and the others as without it. -/
theorem findIn_split {a b : List RequestEntry} (ha : ∀ e ∈ a, e.id ≠ entry.id) :
    findIn (a ++ entry :: b) id = if id = entry.id then some entry else findIn (a ++ b) id := by
  rw [findIn_append, findIn_append]
  by_cases hid : id = entry.id
  · rw [if_pos hid, hid, findIn_eq_none.mpr ha]
    simp [findIn]
  · have hne : (entry.id == id) = false := by simpa using fun h => hid h.symm
    rw [if_neg hid]
    simp [findIn, hne]

theorem find?_id (h : registry.find? id = some entry) : entry.id = id := by
  unfold find? at h
  rcases Option.or_eq_some_iff.mp h with hactive | ⟨-, harchive⟩
  · exact (findIn_eq_some hactive).2
  · exact (findIn_eq_some harchive).2

/-- What is found may still change or is final. -/
theorem Sound.open_or_final (h : registry.Sound) (hfind : registry.find? id = some entry) :
    IsOpen entry ∨ IsFinal entry := by
  unfold find? at hfind
  rcases Option.or_eq_some_iff.mp hfind with hactive | ⟨-, harchive⟩
  · exact .inl (h.active entry (findIn_eq_some hactive).1)
  · exact .inr (h.archive entry (findIn_eq_some harchive).1)

/-- A final entry is archived, and its request is not active any more. -/
theorem Sound.mem_archive (h : registry.Sound) (hfind : registry.find? id = some entry)
    (hfinal : IsFinal entry) : entry ∈ registry.archive ∧ ∀ e ∈ registry.active, e.id ≠ id := by
  unfold find? at hfind
  rcases Option.or_eq_some_iff.mp hfind with hactive | ⟨hnone, harchive⟩
  · exact ((h.active entry (findIn_eq_some hactive).1).not_final hfinal).elim
  · exact ⟨(findIn_eq_some harchive).1, findIn_eq_none.mp hnone⟩

/-- A request that is unplanned or planned may still change. -/
theorem Sound.isOpen (h : registry.Sound) (hfind : registry.find? id = some entry)
    (hstatus : entry.status = .unplanned ∨ entry.status = .planned) : IsOpen entry := by
  refine (h.open_or_final hfind).resolve_right ?_
  rintro (⟨hperformed, -⟩ | ⟨reason, hcancelled⟩)
  · rcases hstatus with hstatus | hstatus <;> simp [hstatus] at hperformed
  · rcases hstatus with hstatus | hstatus <;> simp [hstatus] at hcancelled

/-- An entry that may still change is active, and no other entry has its identifier. -/
theorem Sound.exists_split (h : registry.Sound) (hfind : registry.find? id = some entry)
    (hopen : IsOpen entry) :
    ∃ a b, registry.active = a ++ entry :: b ∧ entry.id = id ∧ (∀ e ∈ a ++ b, e.id ≠ id) ∧
      ∀ e ∈ registry.archive, e.id ≠ id := by
  have hmem : entry ∈ registry.active ∧ entry.id = id := by
    unfold find? at hfind
    cases hactive : findIn registry.active id with
    | some found =>
      rw [hactive, Option.some_or, Option.some.injEq] at hfind
      exact hfind ▸ findIn_eq_some hactive
    | none =>
      rw [hactive, Option.none_or] at hfind
      exact (hopen.not_final (h.archive entry (findIn_eq_some hfind).1)).elim
  obtain ⟨a, b, hsplit⟩ := List.append_of_mem hmem.1
  have hdistinct := h.distinct
  rw [hsplit] at hdistinct
  simp only [List.append_assoc, List.cons_append, List.map_append, List.map_cons] at hdistinct
  obtain ⟨-, hrest, hcross⟩ := List.nodup_append.mp hdistinct
  obtain ⟨hnot, -⟩ := List.nodup_cons.mp hrest
  rw [← List.map_append] at hnot
  refine ⟨a, b, hsplit, hmem.2, ?_, ?_⟩
  · intro e he heq
    rcases List.mem_append.mp he with ha | hb
    · exact hcross _ (List.mem_map_of_mem ha) _ List.mem_cons_self (heq.trans hmem.2.symm)
    · exact hnot (List.mem_map.mpr ⟨e, by simp [hb], heq.trans hmem.2.symm⟩)
  · intro e he heq
    exact hnot (List.mem_map.mpr ⟨e, by simp [he], heq.trans hmem.2.symm⟩)

/-- An active entry is found under its identifier. -/
theorem Sound.find_active (h : registry.Sound) (hmem : entry ∈ registry.active) :
    registry.find? entry.id = some entry := by
  obtain ⟨a, b, hsplit⟩ := List.append_of_mem hmem
  have hdistinct := h.distinct
  rw [hsplit] at hdistinct
  simp only [List.append_assoc, List.cons_append, List.map_append, List.map_cons] at hdistinct
  have hcross := (List.nodup_append.mp hdistinct).2.2
  have ha : ∀ e ∈ a, e.id ≠ entry.id := fun e he =>
    hcross _ (List.mem_map_of_mem he) _ List.mem_cons_self
  unfold find?
  rw [hsplit, findIn_split ha, if_pos rfl, Option.some_or]

/-- The requests in the queue are unplanned. -/
theorem Sound.find_pending (h : registry.Sound) (hmem : id ∈ registry.pending) :
    ∃ entry, registry.find? id = some entry ∧ entry.status = .unplanned := by
  rw [pending, h.queue] at hmem
  obtain ⟨entry, hentry, rfl⟩ := List.mem_map.mp hmem
  obtain ⟨hactive, hstatus⟩ := List.mem_filter.mp hentry
  exact ⟨entry, h.find_active hactive, by simpa using hstatus⟩

theorem Sound.pending_nodup (h : registry.Sound) : registry.pending.Nodup := by
  rw [pending, h.queue]
  have hdistinct := h.distinct
  rw [List.map_append] at hdistinct
  exact (List.nodup_append.mp hdistinct).1.sublist (List.filter_sublist.map _)

theorem Sound.activeEntry_eq (h : registry.Sound) (hfind : registry.find? id = some entry)
    (hopen : IsOpen entry) : registry.activeEntry id = .ok entry := by
  obtain ⟨a, b, hsplit, hid, hothers, harchive⟩ := h.exists_split hfind hopen
  have ha : ∀ e ∈ a, e.id ≠ entry.id := fun e he => hid ▸ hothers e (by simp [he])
  have hactive : findIn registry.active id = some entry := by
    rw [hsplit, findIn_split ha, if_pos hid.symm]
  unfold activeEntry
  rw [findIn_eq_none.mpr harchive, hactive]

/-! ## Changing entries -/

/-- A sound registry that differs from another one in the entry of one request. -/
structure Becomes (registry registry' : Registry) (entry : RequestEntry) : Prop where
  /-- It is sound. -/
  sound : registry'.Sound
  /-- The request has the given entry, and every other one has what it had. -/
  find : ∀ id, registry'.find? id = if id = entry.id then some entry else registry.find? id

/-- The queue without a request names the others that are unplanned. -/
theorem Sound.queue_without {a b : List RequestEntry} (h : registry.Sound)
    (hsplit : registry.active = a ++ entry :: b) (hothers : ∀ e ∈ a ++ b, e.id ≠ entry.id) :
    registry.unplanned.filter (· != entry.id) =
      ((a ++ b).filter fun e => e.status = .unplanned).map RequestEntry.id := by
  have hkeep {l : List RequestEntry} (hl : ∀ e ∈ l, e.id ≠ entry.id) :
      l.filter (fun e => e.id != entry.id && decide (e.status = .unplanned)) =
        l.filter fun e => decide (e.status = .unplanned) :=
    List.filter_congr fun e he => by simp [hl e he]
  rw [h.queue, hsplit, List.filter_map, List.filter_filter]
  congr 1
  simp only [Function.comp_def, List.filter_append, List.filter_cons]
  rw [hkeep fun e he => hothers e (by simp [he]), hkeep fun e he => hothers e (by simp [he])]
  simp

/-- An active entry is replaced by one that is planned. -/
theorem Sound.replace {a b : List RequestEntry} {entry' : RequestEntry} (h : registry.Sound)
    (hsplit : registry.active = a ++ entry :: b) (hothers : ∀ e ∈ a ++ b, e.id ≠ entry.id)
    (hid : entry'.id = entry.id) (hplanned : entry'.status = .planned)
    (hvehicle : entry'.vehicle.isSome) :
    registry.Becomes
      { registry with
        active := a ++ entry' :: b, unplanned := registry.unplanned.filter (· != entry.id) }
      entry' := by
  have ha : ∀ e ∈ a, e.id ≠ entry.id := fun e he => hothers e (by simp [he])
  refine ⟨⟨?_, ?_, h.archive, ?_⟩, fun other => ?_⟩
  · have hdistinct := h.distinct
    rw [hsplit] at hdistinct
    simpa [hid] using hdistinct
  · intro e he
    rcases List.mem_append.mp he with he | he
    · exact h.active e (by simp [hsplit, he])
    · rcases List.mem_cons.mp he with rfl | he
      · exact .inr ⟨hplanned, hvehicle⟩
      · exact h.active e (by simp [hsplit, he])
  · rw [h.queue_without hsplit hothers]
    simp [hplanned]
  · simp only [find?, hsplit]
    rw [findIn_split (by simpa [hid] using ha), findIn_split ha, hid]
    split <;> rfl

/-- An active entry moves to the archive in its final form. -/
theorem Sound.finish {a b : List RequestEntry} {entry' : RequestEntry} (h : registry.Sound)
    (hsplit : registry.active = a ++ entry :: b) (hothers : ∀ e ∈ a ++ b, e.id ≠ entry.id)
    (harchive : ∀ e ∈ registry.archive, e.id ≠ entry.id) (hid : entry'.id = entry.id)
    (hfinal : IsFinal entry') :
    registry.Becomes
      { active := a ++ b, unplanned := registry.unplanned.filter (· != entry.id)
        archive := registry.archive ++ [entry'] }
      entry' := by
  have ha : ∀ e ∈ a, e.id ≠ entry.id := fun e he => hothers e (by simp [he])
  refine ⟨⟨?_, ?_, ?_, h.queue_without hsplit hothers⟩, fun other => ?_⟩
  · have hdistinct := h.distinct
    rw [hsplit] at hdistinct
    have hmoved : ((a ++ entry :: b) ++ registry.archive).Perm
        ((a ++ b) ++ (registry.archive ++ [entry])) := by
      rw [← List.append_assoc (a ++ b)]
      exact (List.perm_middle.append_right _).trans (List.perm_append_singleton _ _).symm
    have hnodup := (hmoved.map RequestEntry.id).nodup_iff.mp hdistinct
    simpa [hid] using hnodup
  · exact fun e he => h.active e (by
      rcases List.mem_append.mp he with he | he <;> simp [hsplit, he])
  · intro e he
    rcases List.mem_append.mp he with he | he
    · exact h.archive e he
    · rw [List.mem_singleton.mp he]
      exact hfinal
  · simp only [find?, hsplit]
    rw [findIn_split ha, findIn_append registry.archive]
    by_cases hother : other = entry.id
    · rw [if_pos (hother.trans hid.symm), hother, findIn_eq_none.mpr hothers,
        findIn_eq_none.mpr harchive]
      simp [findIn, hid]
    · have hne : findIn [entry'] other = none := by
        simpa [findIn_eq_none, hid] using Ne.symm hother
      rw [if_neg (fun h => hother (h.trans hid)), if_neg hother, hne, Option.or_none]

/-! ## The changes of the registry -/

theorem update_eq {a b : List RequestEntry} {entry' : RequestEntry}
    (hsplit : registry.active = a ++ entry :: b) (hothers : ∀ e ∈ a ++ b, e.id ≠ entry.id)
    (hid : entry'.id = entry.id) :
    registry.update entry' = { registry with active := a ++ entry' :: b } := by
  have hkeep {l : List RequestEntry} (hl : ∀ e ∈ l, e.id ≠ entry.id) :
      l.map (fun e => if e.id = entry'.id then entry' else e) = l := by
    refine (List.map_congr_left fun e he => ?_).trans (List.map_id' l)
    rw [if_neg (hid ▸ hl e he)]
  unfold update
  rw [hsplit, List.map_append, List.map_cons, if_pos hid.symm,
    hkeep fun e he => hothers e (by simp [he]), hkeep fun e he => hothers e (by simp [he])]

theorem retire_eq {a b : List RequestEntry} {entry' : RequestEntry}
    (hsplit : registry.active = a ++ entry :: b) (hothers : ∀ e ∈ a ++ b, e.id ≠ entry.id)
    (hid : entry'.id = entry.id) :
    registry.retire entry' =
      { registry with active := a ++ b, archive := registry.archive ++ [entry'] } := by
  have hkeep {l : List RequestEntry} (hl : ∀ e ∈ l, e.id ≠ entry.id) :
      l.filter (fun e => e.id != entry'.id) = l :=
    List.filter_eq_self.mpr fun e he => by simpa [hid] using hl e he
  unfold retire
  rw [hsplit, List.filter_append, List.filter_cons, if_neg (by simp [hid]),
    hkeep fun e he => hothers e (by simp [he]), hkeep fun e he => hothers e (by simp [he])]

/-- A planned request is not in the queue. -/
theorem Sound.unqueued {a b : List RequestEntry} (h : registry.Sound)
    (hsplit : registry.active = a ++ entry :: b) (hothers : ∀ e ∈ a ++ b, e.id ≠ entry.id)
    (hplanned : entry.status = .planned) :
    registry.unplanned.filter (· != entry.id) = registry.unplanned := by
  rw [h.queue_without hsplit hothers, h.queue, hsplit]
  simp [hplanned]

/-- An unplanned request can be planned. -/
theorem Sound.markPlanned (h : registry.Sound) (hfind : registry.find? id = some entry)
    (hstatus : entry.status = .unplanned) (vehicle : VehicleId) (pickup dropoff : Time) :
    ∃ registry', registry.markPlanned id vehicle pickup dropoff = .ok registry' ∧
      registry.Becomes registry'
        { entry with
          status := .planned, vehicle := some vehicle
          plannedPickup := some pickup, plannedDropoff := some dropoff } := by
  have hopen := h.isOpen hfind (.inl hstatus)
  obtain ⟨a, b, hsplit, rfl, hothers, -⟩ := h.exists_split hfind hopen
  refine ⟨_, ?_, h.replace hsplit hothers rfl rfl rfl⟩
  simp only [Registry.markPlanned, h.activeEntry_eq hfind hopen, bind, Except.bind, hstatus, ne_eq,
    not_true_eq_false, if_false]
  rw [update_eq hsplit hothers (by rfl)]
  rfl

/-- A request that is unplanned or planned can be cancelled. -/
theorem Sound.markCancelled (h : registry.Sound) (hfind : registry.find? id = some entry)
    (hstatus : entry.status = .unplanned ∨ entry.status = .planned) (reason : CancelReason)
    (t : Time) :
    ∃ registry', registry.markCancelled id reason t = .ok registry' ∧
      registry.Becomes registry'
        { entry with status := .cancelled reason, cancelledAt := some t } := by
  have hopen := h.isOpen hfind hstatus
  obtain ⟨a, b, hsplit, rfl, hothers, harchive⟩ := h.exists_split hfind hopen
  refine ⟨_, ?_, h.finish hsplit hothers harchive rfl (.inr ⟨reason, rfl⟩)⟩
  have hallowed : ¬(entry.status ≠ .unplanned ∧ entry.status ≠ .planned) := by
    rcases hstatus with hstatus | hstatus <;> simp [hstatus]
  simp only [Registry.markCancelled, h.activeEntry_eq hfind hopen, bind, Except.bind, hallowed,
    if_false]
  have hunqueued : (registry.unqueue entry.id).active = a ++ entry :: b := hsplit
  rw [retire_eq hunqueued hothers (by rfl)]
  rfl

/-- The passenger of a planned request can board once. -/
theorem Sound.markPickedUp (h : registry.Sound) (hfind : registry.find? id = some entry)
    (hstatus : entry.status = .planned) (hwaits : entry.pickedUpAt = none) (t : Time) :
    ∃ registry', registry.markPickedUp id t = .ok registry' ∧
      registry.Becomes registry' { entry with pickedUpAt := some t } := by
  have hopen := h.isOpen hfind (.inr hstatus)
  have hvehicle := hopen.vehicle hstatus
  obtain ⟨a, b, hsplit, rfl, hothers, -⟩ := h.exists_split hfind hopen
  refine ⟨_, ?_, h.replace hsplit hothers rfl hstatus hvehicle⟩
  rw [h.unqueued hsplit hothers hstatus]
  simp only [Registry.markPickedUp, h.activeEntry_eq hfind hopen, bind, Except.bind, hstatus,
    hwaits]
  rw [update_eq hsplit hothers (by rfl)]
  rfl

/-- The passenger of a planned request can alight. -/
theorem Sound.markPerformed (h : registry.Sound) (hfind : registry.find? id = some entry)
    (hstatus : entry.status = .planned) (t : Time) :
    ∃ registry', registry.markPerformed id t = .ok registry' ∧
      registry.Becomes registry'
        { entry with status := .performed, droppedOffAt := some t } := by
  have hopen := h.isOpen hfind (.inr hstatus)
  have hvehicle := hopen.vehicle hstatus
  obtain ⟨a, b, hsplit, rfl, hothers, harchive⟩ := h.exists_split hfind hopen
  refine ⟨_, ?_, h.finish hsplit hothers harchive rfl (.inl ⟨rfl, hvehicle⟩)⟩
  rw [h.unqueued hsplit hothers hstatus]
  simp only [Registry.markPerformed, h.activeEntry_eq hfind hopen, bind, Except.bind, hstatus]
  rw [retire_eq hsplit hothers (by rfl)]
  rfl

/-- A request that is registered is new, and it waits for a vehicle. -/
theorem Sound.submit_ok {request : Request} {registry' : Registry} (h : registry.Sound)
    (hsubmit : registry.submit request = .ok registry') :
    registry.find? request.id = none ∧ registry.Becomes registry' { request := request } := by
  unfold submit at hsubmit
  split at hsubmit
  · cases hsubmit
  next hnew =>
    have hnone : registry.find? request.id = none := by simpa using hnew
    obtain ⟨hactive, harchive⟩ := Option.or_eq_none_iff.mp hnone
    have hothers := findIn_eq_none.mp hactive
    obtain rfl : registry' =
        { registry with
          active := registry.active ++ [{ request := request }]
          unplanned := registry.unplanned ++ [request.id] } := by
      dsimp only at hsubmit
      split at hsubmit
      · split at hsubmit <;> cases hsubmit
        rfl
      · cases hsubmit
        rfl
    refine ⟨hnone, ⟨?_, ?_, h.archive, ?_⟩, fun other => ?_⟩
    · have hmoved : ({ request := request } :: (registry.active ++ registry.archive)).Perm
          ((registry.active ++ [{ request := request }]) ++ registry.archive) := by
        rw [List.append_assoc]
        exact List.perm_middle.symm
      refine (hmoved.map RequestEntry.id).nodup_iff.mp ?_
      rw [List.map_cons, List.nodup_cons]
      refine ⟨?_, h.distinct⟩
      intro hmem
      obtain ⟨e, he, hid⟩ := List.mem_map.mp hmem
      rcases List.mem_append.mp he with he | he
      · exact hothers e he hid
      · exact findIn_eq_none.mp harchive e he hid
    · intro e he
      rcases List.mem_append.mp he with he | he
      · exact h.active e he
      · rw [List.mem_singleton.mp he]
        exact .inl ⟨rfl, rfl⟩
    · rw [h.queue]
      simp [RequestEntry.id]
    · have hsplit := @findIn_split other { request := request } registry.active [] hothers
      simp only [find?]
      rw [hsplit, List.append_nil]
      split <;> rfl

/-- A new request whose window does not close before it opens is registered. -/
theorem exists_submit {request : Request} (hnew : registry.find? request.id = none)
    (hwindow : ∀ window ∈ request.window, window.earliest ≤ window.latest) :
    ∃ registry', registry.submit request = .ok registry' := by
  unfold submit
  rw [hnew]
  cases hrequest : request.window with
  | none => exact ⟨_, rfl⟩
  | some window =>
    have hle := hwindow window hrequest
    have hlt : ¬window.latest < window.earliest := Nat.not_lt_of_le hle
    simp only [Option.isSome_none, Bool.false_eq_true, if_false, hlt]
    exact ⟨_, rfl⟩

/-! ## Changes in place -/

variable {entry' : RequestEntry}

/-- The active entry of a request, once another one has been written in its place. -/
theorem findIn_update (h : findIn registry.active id = some entry) (hid : entry'.id = id) :
    findIn (registry.update entry').active id = some entry' := by
  have hsame : ((fun e : RequestEntry => e.id == id) ∘
      fun e => if e.id = entry'.id then entry' else e) = fun e => e.id == id := by
    funext e
    by_cases he : e.id = id <;> simp [hid, he]
  have hfound : entry.id = id := by simpa using List.find?_some h
  rw [findIn, update, List.find?_map, hsame]
  rw [findIn] at h
  simp [h, hfound, hid]

/-- An entry that is archived need not be written first. -/
theorem retire_update (registry : Registry) (entry : RequestEntry) :
    (registry.update entry).retire entry = registry.retire entry := by
  have hsame : (registry.update entry).active.filter (·.id != entry.id) =
      registry.active.filter (·.id != entry.id) := by
    simp only [update]
    induction registry.active with
    | nil => rfl
    | cons e rest ih =>
      by_cases he : e.id = entry.id <;> simp [he, ih]
  simp only [retire, hsame]
  rfl

/-- The entry of a request that may still change is the active one. -/
theorem activeEntry_ok (h : registry.activeEntry id = .ok entry) :
    findIn registry.active id = some entry ∧ entry.id = id := by
  unfold activeEntry at h
  split at h
  · cases h
  · next hactive =>
    cases h
    exact ⟨hactive, by simpa using List.find?_some hactive⟩
  · cases h

namespace InPlace

/-- A request is registered entirely or not at all. -/
theorem submit_eq (request : Request) :
    submit request = Action.change fun registry => registry.submit request := by
  funext registry
  simp only [submit, Registry.submit, Action.change, Action.run_get_bind]
  by_cases hknown : (registry.find? request.id).isSome = true
  · rw [if_pos hknown, if_pos hknown]
    rfl
  · rw [if_neg hknown, if_neg hknown]
    cases request.window with
    | none => rfl
    | some window =>
      dsimp only
      split <;> rfl

/-- A request is planned entirely or not at all. -/
theorem markPlanned_eq (id : RequestId) (vehicle : VehicleId) (pickup dropoff : Time) :
    markPlanned id vehicle pickup dropoff =
      Action.change fun registry => registry.markPlanned id vehicle pickup dropoff :=
  Action.guarded_eq_change fun _ _ _ => rfl

/-- A passenger boards entirely or not at all. -/
theorem markPickedUp_eq (id : RequestId) (t : Time) :
    markPickedUp id t = Action.change fun registry => registry.markPickedUp id t :=
  Action.guarded_eq_change fun _ _ _ => rfl

/-- An entry that has been written for a request is the one that goes to the archive. -/
theorem retire_written (h : findIn registry.active id = some entry) (hid : entry'.id = id) :
    retire id (registry.update entry') = .ok () (registry.retire entry') := by
  simp only [retire, Action.run_modify, findIn_update h hid, retire_update]

/-- A request is performed entirely or not at all. -/
theorem markPerformed_eq (id : RequestId) (t : Time) :
    markPerformed id t = Action.change fun registry => registry.markPerformed id t := by
  refine Action.guarded_eq_change fun registry entry hentry => ?_
  obtain ⟨hfind, hid⟩ := activeEntry_ok hentry
  exact retire_written hfind hid

/-- A request is cancelled entirely or not at all. -/
theorem markCancelled_eq (id : RequestId) (reason : CancelReason) (t : Time) :
    markCancelled id reason t =
      Action.change fun registry => registry.markCancelled id reason t := by
  refine Action.guarded_eq_change fun registry entry hentry => ?_
  obtain ⟨hfind, hid⟩ := activeEntry_ok hentry
  have hqueue : findIn (registry.unqueue id).active id = some entry := hfind
  exact retire_written hqueue hid

end InPlace

end DemandTransport.Registry
