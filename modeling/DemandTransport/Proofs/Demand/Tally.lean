import DemandTransport.Proofs.Demand.Histories

/-!
# Counting requests

Every change that a registry accepts takes one request past one milestone: the request is
registered, a vehicle is found for it, its passenger boards or alights, or it is cancelled. So how
many requests have passed a milestone can be found out by counting changes instead of requests.
-/

namespace DemandTransport

/-- What may have happened to a request. -/
inductive Milestone where
  | submitted
  /-- A vehicle was found for it. -/
  | planned
  | pickedUp
  | performed
  | cancelled
  deriving DecidableEq, Repr

/-- A milestone passed a number of times, and no other one. -/
def Milestone.times (m : Milestone) (n : Nat) (m' : Milestone) : Nat := if m' = m then n else 0

theorem Milestone.times_add (m : Milestone) (n k : Nat) (m' : Milestone) :
    m.times n m' + m.times k m' = m.times (n + k) m' := by
  unfold times
  split <;> rfl

/-- Whether a request was cancelled. -/
def RequestStatus.isCancelled : RequestStatus → Bool
  | .cancelled _ => true
  | _ => false

namespace RequestEntry

variable {entry entry' : RequestEntry}

/-- Whether a request has passed a milestone. -/
def reached (entry : RequestEntry) : Milestone → Bool
  | .submitted => true
  | .planned => entry.vehicle.isSome
  | .pickedUp => entry.pickedUpAt.isSome
  | .performed => entry.status = .performed
  | .cancelled => entry.status.isCancelled

/-- An unplanned request has no vehicle. -/
def Unassigned (entry : RequestEntry) : Prop := entry.status = .unplanned → entry.vehicle = none

/-- An entry advances past one milestone at a time, and never back. -/
theorem Advances.exists_milestone (h : entry.Advances entry') (hwaits : entry.Unassigned) :
    ∃ m, entry.reached m = false ∧ ∀ m', entry'.reached m' = (entry.reached m' || m' == m) := by
  cases h with
  | plan hstatus =>
    refine ⟨.planned, by simp [reached, hwaits hstatus], fun m' => ?_⟩
    cases m' <;> simp [reached, hstatus, RequestStatus.isCancelled]
  | cancel hlive =>
    have hopen : entry.reached .performed = false ∧ entry.reached .cancelled = false := by
      rcases hlive with hstatus | hstatus <;> simp [reached, hstatus, RequestStatus.isCancelled]
    refine ⟨.cancelled, hopen.2, fun m' => ?_⟩
    cases m' <;> simp_all [reached, RequestStatus.isCancelled]
  | board hplanned hnot =>
    refine ⟨.pickedUp, by simp [reached, hnot], fun m' => ?_⟩
    cases m' <;> simp [reached]
  | perform hplanned =>
    refine ⟨.performed, by simp [reached, hplanned], fun m' => ?_⟩
    cases m' <;> simp [reached, hplanned, RequestStatus.isCancelled]

/-- So the milestone that has been passed is the only one. -/
theorem Advances.reached_eq (h : entry.Advances entry') (hwaits : entry.Unassigned) {m : Milestone}
    (hnew : entry.reached m = false) (hreached : entry'.reached m = true) (m' : Milestone) :
    entry'.reached m' = (entry.reached m' || m' == m) := by
  obtain ⟨passed, -, hothers⟩ := h.exists_milestone hwaits
  obtain rfl : m = passed := by simpa [hothers, hnew] using hreached
  exact hothers m'

/-- What is noted in an entry leaves no request without a vehicle unplanned. -/
theorem Advances.unassigned (h : entry.Advances entry') : entry'.Unassigned :=
  fun hstatus => (h.not_unplanned hstatus).elim

end RequestEntry

namespace Registry

variable {registry registry' : Registry} {id : RequestId} {entry entry' : RequestEntry}
  {request : Request} {m : Milestone}

/-! ## All entries -/

/-- The entries of all requests. -/
def entries (registry : Registry) : List RequestEntry := registry.active ++ registry.archive

/-- An entry is there if it is found under its identifier. -/
theorem Sound.mem_entries (h : registry.Sound) :
    entry ∈ registry.entries ↔ registry.find? entry.id = some entry := by
  constructor
  · intro hmem
    exact (List.mem_append.mp hmem).elim h.find_active h.find_archive
  · intro hfind
    rcases Option.or_eq_some_iff.mp hfind with hactive | ⟨-, harchive⟩
    · exact List.mem_append_left _ (findIn_eq_some hactive).1
    · exact List.mem_append_right _ (findIn_eq_some harchive).1

theorem Sound.count_entries (h : registry.Sound) (entry : RequestEntry) :
    registry.entries.count entry = if registry.find? entry.id = some entry then 1 else 0 := by
  have hnodup : registry.entries.Nodup := List.Nodup.of_map _ h.distinct
  rw [hnodup.count]
  exact if_congr h.mem_entries rfl rfl

/-- The entry of one request takes the place of its old one, if it had one. -/
theorem Becomes.entries_perm (h : registry.Sound) (hbecomes : registry.Becomes registry' entry) :
    ((registry.find? entry.id).toList ++ registry'.entries).Perm (entry :: registry.entries) := by
  refine List.perm_iff_count.mpr fun e => ?_
  rw [List.count_append, List.count_cons, hbecomes.sound.count_entries, h.count_entries,
    hbecomes.find]
  by_cases hid : e.id = entry.id
  · rw [if_pos hid, hid]
    cases hfind : registry.find? entry.id with
    | none => simp
    | some old => simp [List.count_singleton, Nat.add_comm]
  · have hne : entry ≠ e := fun heq => hid (heq ▸ rfl)
    have hnone : (registry.find? entry.id).toList.count e = 0 := by
      refine List.count_eq_zero_of_not_mem fun hmem => hid ?_
      exact find?_id (Option.mem_toList.mp hmem)
    simp [hid, hne, hnone]

/-! ## Milestones -/

/-- How many requests have passed a milestone. -/
def tally (registry : Registry) (m : Milestone) : Nat := registry.entries.countP (·.reached m)

theorem tally_submitted :
    registry.tally .submitted = registry.activeCount + registry.archivedCount := by
  have hall : registry.tally .submitted = registry.entries.length :=
    List.countP_eq_length.mpr fun _ _ => rfl
  rw [hall, entries, List.length_append, activeCount, archivedCount]

/-- No unplanned request has a vehicle. -/
def Unassigned (registry : Registry) : Prop :=
  ∀ id entry, registry.find? id = some entry → entry.Unassigned

/-- A later registry in which more requests have passed the milestones, by these numbers. -/
structure Gains (registry registry' : Registry) (gained : Milestone → Nat) : Prop where
  sound : registry'.Sound
  unassigned : registry'.Unassigned
  tally : ∀ m, registry'.tally m = registry.tally m + gained m

theorem Gains.refl (h : registry.Sound) (hwaits : registry.Unassigned) :
    registry.Gains registry fun _ => 0 :=
  ⟨h, hwaits, fun _ => rfl⟩

/-- Gains add up. -/
theorem Gains.trans {registry'' : Registry} {gained more total : Milestone → Nat}
    (h : registry.Gains registry' gained) (h' : registry'.Gains registry'' more)
    (htotal : ∀ m, gained m + more m = total m) : registry.Gains registry'' total :=
  ⟨h'.sound, h'.unassigned, fun m => by rw [h'.tally, h.tally, Nat.add_assoc, htotal]⟩

theorem Becomes.unassigned (hbecomes : registry.Becomes registry' entry)
    (h : registry.Unassigned) (hentry : entry.Unassigned) : registry'.Unassigned := by
  intro id found hfind
  rw [hbecomes.find] at hfind
  split at hfind
  · exact Option.some.inj hfind ▸ hentry
  · exact h id found hfind

/-- A request is registered. -/
theorem Sound.submit_gains (h : registry.Sound) (hwaits : registry.Unassigned)
    (hok : registry.submit request = .ok registry') :
    registry.Gains registry' (Milestone.submitted.times 1) := by
  obtain ⟨hnew, hbecomes⟩ := h.submit_ok hok
  refine ⟨hbecomes.sound, hbecomes.unassigned hwaits fun _ => rfl, fun m' => ?_⟩
  have hperm := hbecomes.entries_perm h
  rw [show registry.find? ({ request := request } : RequestEntry).id = none from hnew] at hperm
  have hreached : RequestEntry.reached { request := request } m' = decide (m' = .submitted) := by
    cases m' <;> rfl
  simpa [tally, List.countP_cons, hreached, Milestone.times] using hperm.countP_eq (·.reached m')

/-- An entry advances past a milestone. -/
theorem Becomes.gains (h : registry.Sound) (hwaits : registry.Unassigned)
    (hbecomes : registry.Becomes registry' entry') (hfind : registry.find? id = some entry)
    (hadvances : entry.Advances entry') (hnew : entry.reached m = false)
    (hreached : entry'.reached m = true) : registry.Gains registry' (m.times 1) := by
  refine ⟨hbecomes.sound, hbecomes.unassigned hwaits hadvances.unassigned, fun m' => ?_⟩
  have hid : entry'.id = id := by
    rw [RequestEntry.id, hadvances.request_eq]
    exact find?_id hfind
  have hcount := (hbecomes.entries_perm h).countP_eq (·.reached m')
  rw [hid, hfind, Option.toList_some, List.singleton_append, List.countP_cons, List.countP_cons,
    hadvances.reached_eq (hwaits id entry hfind) hnew hreached] at hcount
  rw [tally, tally, Milestone.times]
  by_cases hm : m' = m
  · subst hm
    simpa [hnew] using hcount
  · simpa [hm] using hcount

theorem Turns.gains (h : registry.Sound) (hwaits : registry.Unassigned)
    (hturns : registry.Turns registry' id entry entry') (hnew : entry.reached m = false)
    (hreached : entry'.reached m = true) : registry.Gains registry' (m.times 1) :=
  hturns.toBecomes.gains h hwaits hturns.found hturns.advances hnew hreached

/-- The milestone that a call takes its request past. -/
def Call.milestone : Call → Milestone
  | submit _ => .submitted
  | markPlanned _ _ _ _ => .planned
  | markCancelled _ _ _ => .cancelled
  | markPickedUp _ _ => .pickedUp
  | markPerformed _ _ => .performed

/-- A call that is not refused takes one request past its milestone. -/
theorem Sound.change_gains (h : registry.Sound) (hwaits : registry.Unassigned) {call : Call}
    (hok : call.change registry = .ok registry') :
    registry.Gains registry' (call.milestone.times 1) := by
  cases call with
  | submit request => exact h.submit_gains hwaits hok
  | markPlanned id =>
    obtain ⟨entry, hturns⟩ := h.markPlanned_ok hok
    obtain ⟨found, hfind, hguard, -⟩ := change_ok hok
    cases hturns.found.symm.trans hfind
    have hnone := hwaits id entry hfind (not_not.mp hguard)
    exact hturns.gains h hwaits (by simp [Call.milestone, RequestEntry.reached, hnone]) rfl
  | markCancelled id =>
    obtain ⟨entry, hturns⟩ := h.markCancelled_ok hok
    obtain ⟨found, hfind, hguard, -⟩ := change_ok hok
    cases hturns.found.symm.trans hfind
    refine hturns.gains h hwaits ?_ rfl
    rw [not_and_or, not_not, not_not] at hguard
    rcases hguard with hstatus | hstatus <;>
      simp [Call.milestone, RequestEntry.reached, hstatus, RequestStatus.isCancelled]
  | markPickedUp id =>
    obtain ⟨entry, hturns⟩ := h.markPickedUp_ok hok
    obtain ⟨found, hfind, hguard, -⟩ := change_ok hok
    cases hturns.found.symm.trans hfind
    have hnot : entry.pickedUpAt.isSome = false := by simpa using (not_or.mp hguard).2
    exact hturns.gains h hwaits hnot rfl
  | markPerformed id =>
    obtain ⟨entry, hturns⟩ := h.markPerformed_ok hok
    obtain ⟨found, hfind, hguard, -⟩ := change_ok hok
    cases hturns.found.symm.trans hfind
    have hplanned : entry.status = .planned := not_not.mp hguard
    exact hturns.gains h hwaits (by simp [Call.milestone, RequestEntry.reached, hplanned])
      (by simp [Call.milestone, RequestEntry.reached])

end Registry

end DemandTransport
