import DemandTransport.Energy.Chargers
import Mathlib.Data.List.Nodup

/-!
# Plugs

Of a pool of chargers it matters which chargers there are, how many plugs each of them has and who
is plugged in. Plugging in and out changes the last only, and at one charger only. A vehicle that is
not plugged in is refused exactly when as many vehicles are plugged in as there are plugs.
-/

namespace DemandTransport.ChargerPool

variable {R : Type} {pool pool' : ChargerPool R} {id : ChargerId} {charger found : Charger R}
  {vehicle : VehicleId}

/-- No two chargers have one identifier. -/
def Distinct (pool : ChargerPool R) : Prop := (pool.chargers.map Charger.id).Nodup

/-- How many plugs a charger has. -/
def plugs (pool : ChargerPool R) (id : ChargerId) : Nat :=
  ((pool.find? id).map Charger.plugs).getD 0

/-- The vehicles plugged into a charger. -/
def plugged (pool : ChargerPool R) (id : ChargerId) : List VehicleId :=
  ((pool.find? id).map Charger.plugged).getD []

theorem find?_id (h : pool.find? id = some found) : found.id = id := by
  simpa using List.find?_some h

/-- Which chargers are known can be read off the identifiers. -/
theorem known_iff : (pool.find? id).isSome ↔ id ∈ pool.chargers.map Charger.id := by
  simp [find?, List.find?_isSome]

/-- A charger of the pool is found under its identifier. -/
theorem find?_of_mem (h : pool.Distinct) (hmem : charger ∈ pool.chargers) :
    pool.find? charger.id = some charger := by
  cases hfound : pool.find? charger.id with
  | none =>
    have hknown := known_iff.mpr (List.mem_map_of_mem hmem (f := Charger.id))
    simp [hfound] at hknown
  | some found =>
    have hkey := find?_id hfound
    rw [List.inj_on_of_nodup_map h (List.mem_of_find?_eq_some hfound) hmem hkey]

/-- In a pool of one charger, all that are plugged in are so there. -/
theorem plugged_singleton (charger : Charger R) (id : ChargerId) :
    plugged ⟨[charger]⟩ id = if id = charger.id then charger.plugged else [] := by
  by_cases hid : charger.id = id
  · simp [plugged, find?, hid]
  · simp [plugged, find?, hid, Ne.symm hid]

/-! ## Plugging in and out -/

/-- A pool with the same chargers and the same plugs, but possibly other vehicles plugged in. -/
structure Keeps (pool pool' : ChargerPool R) : Prop where
  ids : pool'.chargers.map Charger.id = pool.chargers.map Charger.id
  plugs : ∀ id, pool'.plugs id = pool.plugs id

theorem Keeps.refl (pool : ChargerPool R) : Keeps pool pool := ⟨rfl, fun _ => rfl⟩

theorem Keeps.symm (h : Keeps pool pool') : Keeps pool' pool :=
  ⟨h.ids.symm, fun id => (h.plugs id).symm⟩

theorem Keeps.trans {pool'' : ChargerPool R} (h : Keeps pool pool') (h' : Keeps pool' pool'') :
    Keeps pool pool'' :=
  ⟨h'.ids.trans h.ids, fun id => (h'.plugs id).trans (h.plugs id)⟩

theorem Keeps.known (h : Keeps pool pool') (id : ChargerId) :
    (pool'.find? id).isSome ↔ (pool.find? id).isSome := by
  rw [known_iff, known_iff, h.ids]

theorem Keeps.distinct (h : Keeps pool pool') (hpool : pool.Distinct) : pool'.Distinct := by
  unfold Distinct
  rw [h.ids]
  exact hpool

/-- A charger that has replaced one of its identifier is found there, and the others as before. -/
theorem find?_update (hfound : pool.find? charger.id = some found) (other : ChargerId) :
    (pool.update charger).find? other =
      if other = charger.id then some charger else pool.find? other := by
  obtain ⟨chargers⟩ := pool
  change (chargers.map fun c => if c.id = charger.id then charger else c).find? (·.id == other) =
    if other = charger.id then some charger else chargers.find? (·.id == other)
  have hmem : ∃ c ∈ chargers, c.id = charger.id :=
    ⟨found, List.mem_of_find?_eq_some hfound, find?_id hfound⟩
  clear hfound
  induction chargers with
  | nil => simp at hmem
  | cons first rest ih =>
    by_cases hfirst : first.id = charger.id
    · by_cases hother : other = charger.id
      · simp [hfirst, hother]
      · have hne : (charger.id == other) = false := by simpa using fun h => hother h.symm
        have hrest : (rest.map fun c => if c.id = charger.id then charger else c).find?
            (·.id == other) = rest.find? (·.id == other) := by
          clear ih hmem
          induction rest with
          | nil => rfl
          | cons next rest ih =>
            by_cases hnext : next.id = charger.id
            · simp [hnext, hne, ih]
            · simp only [List.map_cons, hnext, if_false, List.find?_cons, ih]
        simp [hfirst, hother, hne, hrest]
    · have hrest : ∃ c ∈ rest, c.id = charger.id := by simpa [hfirst] using hmem
      simp only [List.map_cons, hfirst, if_false, List.find?_cons, ih hrest]
      split
      next heq =>
        have hother : other ≠ charger.id := fun h => hfirst (by simpa [h] using heq)
        rw [if_neg hother]
      next => rfl

/-- Replacing a charger by one with as many plugs changes who is plugged in there. -/
theorem update_keeps (hfound : pool.find? charger.id = some found)
    (hplugs : charger.plugs = found.plugs) :
    pool.Keeps (pool.update charger) ∧ ∀ other,
      (pool.update charger).plugged other =
        if other = charger.id then charger.plugged else pool.plugged other := by
  refine ⟨⟨?_, fun other => ?_⟩, fun other => ?_⟩
  · unfold update
    rw [List.map_map]
    refine List.map_congr_left fun c _ => ?_
    rw [Function.comp_apply]
    split
    · exact (‹c.id = charger.id›).symm
    · rfl
  · unfold plugs
    rw [find?_update hfound]
    split
    next heq => simp [heq, hfound, hplugs]
    next => rfl
  · unfold plugged
    rw [find?_update hfound]
    split <;> rfl

/-- A vehicle that has plugged in is plugged in, and nothing else has changed. -/
theorem occupy_ok (h : pool.occupy id vehicle = .ok pool') :
    pool.Keeps pool' ∧ ∀ other, pool'.plugged other =
      if other = id ∧ vehicle ∉ pool.plugged id then pool.plugged id ++ [vehicle]
      else pool.plugged other := by
  unfold occupy get at h
  cases hfound : pool.find? id with
  | none => simp [hfound, bind, Except.bind] at h
  | some found =>
    have hid := find?_id hfound
    have hplugged : pool.plugged id = found.plugged := by simp [plugged, hfound]
    subst hid
    simp only [hfound, bind, Except.bind, Charger.occupy] at h
    split at h
    · cases h
    next changed hchanged =>
      cases h
      split at hchanged
      next hin =>
        cases hchanged
        obtain ⟨hkeeps, hupdate⟩ := update_keeps hfound rfl
        refine ⟨hkeeps, fun other => ?_⟩
        rw [hupdate]
        by_cases heq : other = found.id
        · simp [heq, hplugged, hin]
        · simp [heq]
      next hout =>
        split at hchanged
        · cases hchanged
        · cases hchanged
          have hupdate := @update_keeps R pool { found with plugged := found.plugged ++ [vehicle] }
            found hfound rfl
          refine ⟨hupdate.1, fun other => ?_⟩
          rw [hupdate.2, hplugged]
          simp [hout]

/-- A vehicle that has plugged in anew has taken a free plug. -/
theorem occupy_room (h : pool.occupy id vehicle = .ok pool') (hout : vehicle ∉ pool.plugged id) :
    (pool.plugged id).length < pool.plugs id := by
  unfold occupy get at h
  cases hfound : pool.find? id with
  | none => simp [hfound, bind, Except.bind] at h
  | some found =>
    have hplugged : pool.plugged id = found.plugged := by simp [plugged, hfound]
    have hplugs : pool.plugs id = found.plugs := by simp [plugs, hfound]
    rw [hplugged] at hout ⊢
    rw [hplugs]
    simp only [hfound, bind, Except.bind, Charger.occupy, if_neg hout] at h
    split at h
    · cases h
    next hfree =>
      split at hfree
      · cases hfree
      next hroom => omega

/-- A vehicle is refused only where as many vehicles are plugged in as there are plugs, and it is
not one of them. -/
theorem occupy_full {plugs : Nat}
    (h : pool.occupy id vehicle = .error (.chargerFull id vehicle plugs)) :
    vehicle ∉ pool.plugged id ∧ pool.plugs id ≤ (pool.plugged id).length := by
  unfold occupy get at h
  cases hfound : pool.find? id with
  | none => simp [hfound, bind, Except.bind] at h
  | some found =>
    simp only [hfound, bind, Except.bind, Charger.occupy] at h
    split at h
    next hrefused =>
      split at hrefused
      · cases hrefused
      · split at hrefused
        next hout hfull => simpa [plugged, ChargerPool.plugs, hfound] using ⟨hout, hfull⟩
        · cases hrefused
    · cases h

/-- A vehicle that has unplugged is not plugged in there, and nothing else has changed. -/
theorem release_ok {held : Bool} (h : pool.release id vehicle = .ok (held, pool')) :
    pool.Keeps pool' ∧ held = decide (vehicle ∈ pool.plugged id) ∧ ∀ other, pool'.plugged other =
      if other = id then (pool.plugged id).erase vehicle else pool.plugged other := by
  unfold release get at h
  cases hfound : pool.find? id with
  | none => simp [hfound, bind, Except.bind] at h
  | some found =>
    have hid := find?_id hfound
    have hplugged : pool.plugged id = found.plugged := by simp [plugged, hfound]
    subst hid
    simp only [hfound, bind, Except.bind, Charger.release] at h
    cases h
    have hupdate := @update_keeps R pool { found with plugged := found.plugged.erase vehicle }
      found hfound rfl
    refine ⟨hupdate.1, by rw [hplugged], fun other => ?_⟩
    rw [hupdate.2, hplugged]

/-- A plug of a charger that exists is taken, or there is none. -/
theorem occupy_cases (h : (pool.find? id).isSome) (vehicle : VehicleId) :
    (∃ pool', pool.occupy id vehicle = .ok pool') ∨
      ∃ plugs, pool.occupy id vehicle = .error (.chargerFull id vehicle plugs) := by
  obtain ⟨found, hfound⟩ := Option.isSome_iff_exists.mp h
  have hid := find?_id hfound
  simp only [occupy, get, hfound, bind, Except.bind, Charger.occupy]
  split
  · next hfull =>
    split at hfull
    · cases hfull
    · split at hfull <;> cases hfull
      exact .inr ⟨found.plugs, by rw [hid]⟩
  · exact .inl ⟨_, rfl⟩

/-- A plug of a charger that exists can always be given back. -/
theorem exists_release (h : (pool.find? id).isSome) (vehicle : VehicleId) :
    ∃ held pool', pool.release id vehicle = .ok (held, pool') := by
  obtain ⟨found, hfound⟩ := Option.isSome_iff_exists.mp h
  simp only [release, get, hfound, bind, Except.bind]
  exact ⟨_, _, rfl⟩

/-- Of a pool of the same chargers with the same vehicles plugged in, in whatever order, the same
occupancy is told. -/
theorem occupancy_congr (hkeeps : pool.Keeps pool')
    (hplugged : (pool.plugged id).Perm (pool'.plugged id)) :
    pool'.occupancy id = pool.occupancy id := by
  have hknown := hkeeps.known id
  unfold occupancy get
  unfold plugged at hplugged
  cases hfound : pool.find? id with
  | none =>
    have hnone : pool'.find? id = none := by simpa [hfound] using hknown
    rw [hnone]
  | some charger =>
    obtain ⟨charger', hfound'⟩ := Option.isSome_iff_exists.mp (hknown.mpr (by simp [hfound]))
    rw [hfound, hfound'] at hplugged
    rw [hfound']
    have hsorted (c : Charger R) : c.occupancy.Pairwise fun a b => decide (a ≤ b) = true := by
      refine List.pairwise_mergeSort (fun a b c => ?_) (fun a b => ?_) c.plugged
      · simpa [Id.le_iff] using Nat.le_trans
      · simpa [Id.le_iff] using Nat.le_total a.index b.index
    have hperm : charger'.occupancy.Perm charger.occupancy :=
      (List.mergeSort_perm _ _).trans (hplugged.symm.trans (List.mergeSort_perm _ _).symm)
    refine congrArg Except.ok (hperm.eq_of_pairwise (fun a b _ _ hab hba => ?_)
      (hsorted charger') (hsorted charger))
    simp only [Id.le_iff, decide_eq_true_iff] at hab hba
    exact Id.eq_iff.mpr (Nat.le_antisymm hab hba)

/-! ## New pools -/

theorem place_perm (charger : Charger R) (chargers : List (Charger R)) :
    (place charger chargers).Perm (charger :: chargers) := by
  induction chargers with
  | nil => exact .refl _
  | cons first rest ih =>
    rw [place]
    split
    · exact .refl _
    · exact (ih.cons first).trans (.swap _ _ _)

/-- Distinct chargers at which nobody is plugged in. -/
structure Unused (pool : ChargerPool R) : Prop where
  distinct : pool.Distinct
  free : ∀ c ∈ pool.chargers, c.plugged = []

section Building

variable [Scalar R] {network : Network R}

/-- A charger that is added is a new one. -/
theorem Unused.add {spec : ChargerSpec R} (h : pool.Unused)
    (hadd : add network pool spec = .ok pool') : pool'.Unused := by
  unfold ChargerPool.add at hadd
  split at hadd
  · cases hadd
  split at hadd
  · cases hadd
  split at hadd
  · cases hadd
  next node hnode =>
    split at hadd
    · cases hadd
    next hnew =>
      cases hadd
      have hperm := place_perm ⟨spec.charger, node, spec.power, spec.plugs, []⟩ pool.chargers
      constructor
      · refine (hperm.map Charger.id).nodup_iff.mpr (List.nodup_cons.mpr ⟨?_, h.distinct⟩)
        rwa [← known_iff]
      · intro c hc
        rcases List.mem_cons.mp (hperm.mem_iff.mp hc) with rfl | hc
        · rfl
        · exact h.free c hc

theorem Unused.addAll {specs : List (ChargerSpec R)} (h : pool.Unused)
    (hadd : specs.foldlM (ChargerPool.add network) pool = .ok pool') : pool'.Unused := by
  induction specs generalizing pool with
  | nil =>
    cases hadd
    exact h
  | cons spec rest ih =>
    simp only [List.foldlM_cons, bind, Except.bind] at hadd
    split at hadd
    · cases hadd
    · exact ih (h.add ‹_›) hadd

/-- The chargers that a run begins with are distinct, and nobody is plugged in. -/
theorem build_ok {specs : List (ChargerSpec R)} (h : build specs network = .ok pool) :
    pool.Distinct ∧ ∀ id, pool.plugged id = [] := by
  have hempty : (empty : ChargerPool R).Unused := ⟨by simp [Distinct, empty], by simp [empty]⟩
  have hunused := hempty.addAll h
  refine ⟨hunused.distinct, fun id => ?_⟩
  unfold plugged
  cases hfound : pool.find? id with
  | none => rfl
  | some found => exact hunused.free found (List.mem_of_find?_eq_some hfound)

end Building

end DemandTransport.ChargerPool
