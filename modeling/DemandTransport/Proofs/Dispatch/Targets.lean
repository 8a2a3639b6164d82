import DemandTransport.Dispatch.Charging
import DemandTransport.Proofs.Dispatch.Foresight
import DemandTransport.Proofs.Energy.Headway

/-!
# Sessions reach their target

How long a session lasts and how much it charges come from two different calculations. The first one
is rounded up to whole seconds, the second one carries these seconds out, and a longer time never
ends with less charge; so a session that may last as long as it wants to reaches its target. No
session charges beyond the capacity, so the projection of the vehicle cuts nothing off.
-/

namespace DemandTransport

/-! ## Whole seconds -/

namespace Scalar

variable {secs : Rat}

theorem wholeSecs_eq (secs : Rat) : wholeSecs secs = min secs.ceil.toNat wordLimit := by
  unfold wholeSecs
  split
  next hnone =>
    have hceil : secs.ceil ≤ 0 := Rat.ceil_le_iff.mpr (by simpa using hnone)
    rw [Int.toNat_of_nonpos hceil, Nat.zero_min]
  next => rfl

/-- Whole seconds are enough, as long as there are not more of them than fit into a word. -/
theorem le_wholeSecs (h : secs.ceil.toNat ≤ wordLimit) : secs ≤ (wholeSecs secs : Rat) := by
  rw [wholeSecs_eq, Nat.min_eq_left h]
  have hceil : (secs.ceil : Rat) ≤ (secs.ceil.toNat : Rat) := by
    exact_mod_cast Int.self_le_toNat secs.ceil
  exact Rat.le_ceil.trans hceil

end Scalar

/-! ## Charging for as long as it takes -/

namespace LimitedCurve

variable {gap s t secs : Rat} {limited : LimitedCurve Rat}

/-- Charging for at least as long as it takes to get somewhere leads there up to a gap. -/
theorem Tiles.le_advance (h : Tiles gap 0 limited.pieces) (hgap : 0 ≤ gap) (hs : 0 ≤ s)
    (hfull : s ≤ 1) (ht : t ≤ 1) (hzero : 0 ≤ secs) (hsecs : limited.timeBetween s t ≤ secs) :
    t - gap ≤ limited.advance s secs := by
  rcases le_or_gt t s with hthere | hlt
  · rw [advance_eq hs hfull hzero]
    have hstays : s ≤ advanceAlong limited.pieces s secs := h.le_advanceAlong
    exact (sub_le_self t hgap).trans (hthere.trans (le_min hstays hfull))
  · have hexact : t - gap ≤ limited.advance s (limited.timeBetween s t) := by
      rcases h.advance_timeBetween hs hlt ht with hnear | ⟨p, -, -, hto, hends, -⟩
      · have hlow := (abs_le.mp hnear).1
        linarith
      · rw [hends]
        linarith
    refine hexact.trans ?_
    have htime : 0 ≤ limited.timeBetween s t := by
      rw [timeBetween_eq hs hlt ht]
      exact h.secsAlong_nonneg
    rw [advance_eq hs hfull htime, advance_eq hs hfull hzero]
    exact min_le_min_right _ (h.advanceAlong_mono (le_refl s) hsecs)

end LimitedCurve

namespace EnergyProfile

open LimitedCurve

variable {profile : EnergyProfile Rat} {gap charge ratedKw target : Rat}

theorem share_eq (hcapacity : 0 < profile.capacity) (hcharge : 0 ≤ charge)
    (hfull : charge ≤ profile.capacity) :
    profile.share charge = charge / profile.capacity ∧ 0 ≤ profile.share charge ∧
      profile.share charge ≤ 1 := by
  have hlow : 0 ≤ charge / profile.capacity := div_nonneg hcharge hcapacity.le
  have hhigh : charge / profile.capacity ≤ 1 := (div_le_one₀ hcapacity).mpr hfull
  have hshare : profile.share charge = charge / profile.capacity := Scalar.clamp_of_mem hlow hhigh
  exact ⟨hshare, hshare ▸ hlow, hshare ▸ hhigh⟩

/-- With what is gained a battery holds the share to which it is charged. -/
theorem charge_add_chargeEnergy (hcapacity : 0 < profile.capacity) (hcharge : 0 ≤ charge)
    (hfull : charge ≤ profile.capacity) (secs : Nat) :
    charge + profile.chargeEnergy charge ratedKw secs =
      (profile.limited ratedKw).advance (profile.share charge) (secs : Rat) *
        profile.capacity := by
  have hstart : profile.share charge * profile.capacity = charge := by
    rw [(share_eq hcapacity hcharge hfull).1, div_mul_cancel₀ _ hcapacity.ne']
  change charge + ((profile.limited ratedKw).advance (profile.share charge) (secs : Rat) -
    profile.share charge) * profile.capacity = _
  rw [sub_mul, hstart, add_sub_cancel]

/-- Charging loses nothing and does not lead beyond the capacity. -/
theorem chargeEnergy_within (htiles : Tiles gap 0 (profile.limited ratedKw).pieces)
    (hcapacity : 0 < profile.capacity) (hcharge : 0 ≤ charge) (hfull : charge ≤ profile.capacity)
    (secs : Nat) :
    0 ≤ profile.chargeEnergy charge ratedKw secs ∧
      charge + profile.chargeEnergy charge ratedKw secs ≤ profile.capacity := by
  obtain ⟨-, hlow, hhigh⟩ := share_eq hcapacity hcharge hfull
  have hadvance := @advance_eq _ (secs : Rat) (profile.limited ratedKw) hlow hhigh
    (Nat.cast_nonneg secs)
  have hahead : profile.share charge ≤
      (profile.limited ratedKw).advance (profile.share charge) (secs : Rat) := by
    rw [hadvance]
    exact le_min htiles.le_advanceAlong hhigh
  have hcapped : (profile.limited ratedKw).advance (profile.share charge) (secs : Rat) ≤ 1 := by
    rw [hadvance]
    exact min_le_right _ _
  refine ⟨mul_nonneg (sub_nonneg.mpr hahead) hcapacity.le, ?_⟩
  rw [charge_add_chargeEnergy hcapacity hcharge hfull]
  exact mul_le_of_le_one_left hcapacity.le hcapped

/-- Charging for at least as long as it takes leads to the target up to a gap. -/
theorem target_le_charge (htiles : Tiles gap 0 (profile.limited ratedKw).pieces) (hgap : 0 ≤ gap)
    (hcapacity : 0 < profile.capacity) (hcharge : 0 ≤ charge) (hfull : charge ≤ profile.capacity)
    (htarget : target ≤ 1) {secs : Nat}
    (hsecs : (profile.limited ratedKw).timeBetween (profile.share charge) target ≤ (secs : Rat)) :
    (target - gap) * profile.capacity ≤ charge + profile.chargeEnergy charge ratedKw secs := by
  obtain ⟨-, hlow, hhigh⟩ := share_eq hcapacity hcharge hfull
  rw [charge_add_chargeEnergy hcapacity hcharge hfull]
  exact mul_le_mul_of_nonneg_right
    (htiles.le_advance hgap hlow hhigh htarget (Nat.cast_nonneg secs) hsecs) hcapacity.le

/-- A battery that is full is not charged. -/
theorem chargeSecsTo_full (hcapacity : 0 < profile.capacity) (hfull : profile.capacity ≤ charge)
    (htarget : IsShare target) (ratedKw : Rat) :
    profile.chargeSecsTo charge ratedKw target = 0 := by
  have hshare : Scalar.clamp (profile.share charge) 0 1 = 1 := by
    have hover : 1 ≤ charge / profile.capacity := (one_le_div hcapacity).mpr hfull
    unfold share Scalar.clamp
    grind
  have hnone : (profile.limited ratedKw).timeBetween (profile.share charge) target = 0 := by
    refine timeBetween_of_le ?_
    rw [hshare, Scalar.clamp_of_mem htarget.1 htarget.2]
    exact htarget.2
  unfold chargeSecsTo
  rw [hnone]
  exact if_pos (le_refl _)

end EnergyProfile

/-! ## What a session does to the projection -/

/-- More tasks carry the projected charge on. -/
theorem Vehicle.project?_carried {v : Vehicle Rat} {battery : Battery Rat} {depart : Time}
    {charge : Rat} (hbattery : v.battery? = some battery)
    (hcharge : (v.project? depart []).map Projection.afterTasks = some charge)
    (tasks : List (Task Rat)) :
    ∃ projection, v.project? depart tasks = some projection ∧ projection.afterTasks =
      Battery.chargeAfter battery.capacity charge (tasks.map Task.energyOrZero) := by
  unfold project? at hcharge ⊢
  rw [hbattery] at hcharge ⊢
  split at hcharge
  next found last stay hfound htrailing =>
    cases hfound
    cases hcharge
    exact ⟨_, rfl, Trajectory.steps_charge _⟩
  next => cases hcharge

namespace ChargingPlanner

variable {planner : ChargingPlanner Rat} {v : Vehicle Rat} {profile : EnergyProfile Rat}
  {slot : Slot} {charge : Rat} {charger : Charger Rat} {route : Route Rat}
  {session : Session Rat}

/-- What a session lasts and charges: from the charge on arrival to the target, unless the idle time
is over before. -/
structure Prices (planner : ChargingPlanner Rat) (profile : EnergyProfile Rat) (slot : Slot)
    (arrived : Rat) (charger : Charger Rat) (route : Route Rat) (session : Session Rat) : Prop where
  arrives : 0 ≤ arrived
  finish : session.assignment.finish = min (route.arrival.offset
    (profile.chargeSecsTo arrived charger.power planner.policy.targetSoc)) slot.limit
  lasts : route.arrival < session.assignment.finish
  energy : session.assignment.energy = profile.chargeEnergy arrived charger.power
    (session.assignment.finish.since route.arrival)
  tasks : session.tasks.map Task.energyOrZero =
    route.drives.map (fun _ => profile.driveEnergy route.length) ++ [session.assignment.energy]

theorem session?_prices
    (h : planner.session? v profile slot charge charger route = some session) :
    planner.Prices profile slot (charge + profile.driveEnergy route.length) charger route
      session := by
  unfold session? at h
  dsimp only at h
  split at h
  next harrives =>
    split at h
    · cases h
    next hlasts =>
      split at h
      · cases h
        refine ⟨harrives, rfl, Nat.lt_of_not_le hlasts, rfl, ?_⟩
        rw [List.map_append, List.map_map]
        rfl
      · cases h
  · cases h

namespace Prices

variable {arrived gap : Rat}

/-- A vehicle that is charged has room in its battery when it arrives. -/
theorem arrived_lt (h : planner.Prices profile slot arrived charger route session)
    (hcapacity : 0 < profile.capacity) (htarget : IsShare planner.policy.targetSoc) :
    arrived < profile.capacity := by
  by_contra hfull
  have hnone := EnergyProfile.chargeSecsTo_full hcapacity (not_lt.mp hfull) htarget charger.power
  have hlasts := h.lasts
  rw [h.finish, hnone, Time.lt_iff, Time.secs_min, Time.secs_offset] at hlasts
  omega

/-- A session that ends before the idle time does lasts as long as charging to the target takes. -/
theorem timeBetween_le (h : planner.Prices profile slot arrived charger route session)
    (hends : session.assignment.finish < slot.limit) :
    (profile.limited charger.power).timeBetween (profile.share arrived)
        planner.policy.targetSoc ≤
      (session.assignment.finish.since route.arrival : Nat) := by
  set wanted := profile.chargeSecsTo arrived charger.power planner.policy.targetSoc with hwanted
  have hlasts := h.lasts
  have hlast := slot.limit.secs_le
  rw [h.finish, Time.lt_iff, Time.secs_min, Time.secs_offset] at hends hlasts
  have hsecs : session.assignment.finish.since route.arrival = wanted := by
    rw [Time.since, h.finish, Time.secs_min, Time.secs_offset]
    omega
  have hshort : wanted < wordLimit := by omega
  rw [hsecs, hwanted]
  refine Scalar.le_wholeSecs ?_
  rw [hwanted, EnergyProfile.chargeSecsTo, Scalar.wholeSecs_eq] at hshort
  omega

/-- The projection cuts nothing off a session that fits into the battery. -/
theorem chargeAfter_eq (h : planner.Prices profile slot arrived charger route session)
    (harrived : arrived = charge + profile.driveEnergy route.length)
    (hplain : route.isTrivial = true → route.length = 0) (hlt : arrived < profile.capacity)
    (hfits : arrived + session.assignment.energy ≤ profile.capacity) :
    Battery.chargeAfter profile.capacity charge (session.tasks.map Task.energyOrZero) =
      arrived + session.assignment.energy := by
  rw [h.tasks]
  by_cases htrivial : route.isTrivial = true
  · have hnone : profile.driveEnergy route.length = 0 := by
      rw [hplain htrivial, EnergyProfile.driveEnergy, zero_div, neg_zero, zero_mul]
    rw [hnone, add_zero] at harrived
    rw [Route.drives, if_pos htrivial, ← harrived]
    exact min_eq_left hfits
  · rw [Route.drives, if_neg htrivial, List.map_singleton, List.singleton_append,
      Battery.chargeAfter_cons, ← harrived, min_eq_left hlt.le]
    exact min_eq_left hfits

end Prices

end ChargingPlanner

/-! ## Targets -/

namespace EnergyProfile

open LimitedCurve

/-- Charging for the whole seconds that it takes to get to a target loses nothing, does not lead
beyond the capacity and misses the target by a billionth of the capacity at most, provided that the
seconds fit into a word. This holds for every curve that has passed its check and every charger, as
long as no piece is too narrow to count. So a session that ends before the idle time does brings the
projected charge to its target; no session brings it beyond the capacity or loses any of it. -/
theorem charging_reaches_target {name : String} {empty plateau taper full : CurvePoint Rat}
    {profile : EnergyProfile Rat} {ratedKw target : Rat}
    (hcurve : Curve.make name empty plateau taper full = .ok profile.curve)
    (hcapacity : 0 < profile.capacity) (hpower : 0 < ratedKw) (htarget : IsShare target)
    (hwide : ∀ p ∈ (profile.limited ratedKw).pieces, Piece.negligible < p.toSoc - p.fromSoc) :
    (∀ charge, 0 ≤ charge → charge ≤ profile.capacity →
      ((profile.limited ratedKw).timeBetween (profile.share charge) target).ceil < 2 ^ 64 →
      let gain := profile.chargeEnergy charge ratedKw (profile.chargeSecsTo charge ratedKw target)
      0 ≤ gain ∧ charge + gain ≤ profile.capacity ∧
        (target - 1e-9) * profile.capacity ≤ charge + gain) ∧
      ∀ (planner : ChargingPlanner Rat) (v : Vehicle Rat) (battery : Battery Rat) (slot : Slot)
        (charge : Rat) (charger : Charger Rat) (route : Route Rat) (session : Session Rat),
        planner.policy.targetSoc = target → charger.power = ratedKw →
        v.energy = some ⟨profile, battery⟩ → battery.capacity = profile.capacity →
        (v.project? slot.depart []).map Projection.afterTasks = some charge →
        (route.isTrivial = true → route.length = 0) →
        planner.session? v profile slot charge charger route = some session →
        ∃ projection, v.project? session.depart session.tasks = some projection ∧
          projection.afterTasks =
            charge + profile.driveEnergy route.length + session.assignment.energy ∧
          0 ≤ session.assignment.energy ∧ projection.afterTasks ≤ profile.capacity ∧
          (session.assignment.finish < slot.limit →
            (target - 1e-9) * profile.capacity ≤ projection.afterTasks) := by
  have htiles : Tiles (3 * Piece.negligible) 0 (profile.limited ratedKw).pieces :=
    make_tiles (Curve.make_sound hcurve) hcapacity hpower hwide
  have hgap : (0 : Rat) ≤ 3 * Piece.negligible := mul_nonneg (by norm_num) Piece.negligible_pos.le
  have hclose : (target - 1e-9) * profile.capacity ≤
      (target - 3 * Piece.negligible) * profile.capacity := by
    refine mul_le_mul_of_nonneg_right (sub_le_sub_left ?_ _) hcapacity.le
    rw [Piece.negligible_eq]
    norm_num
  refine ⟨fun charge hcharge hfull htime => ?_, ?_⟩
  · have hsecs : (profile.limited ratedKw).timeBetween (profile.share charge) target ≤
        (profile.chargeSecsTo charge ratedKw target : Nat) :=
      Scalar.le_wholeSecs (by unfold wordLimit; omega)
    obtain ⟨hgain, hroom⟩ := chargeEnergy_within htiles hcapacity hcharge hfull
      (profile.chargeSecsTo charge ratedKw target)
    exact ⟨hgain, hroom, hclose.trans
      (target_le_charge htiles hgap hcapacity hcharge hfull htarget.2 hsecs)⟩
  · rintro planner v battery slot charge charger route session rfl rfl henergy hsame hcharge hplain
      hsession
    have hprices := ChargingPlanner.session?_prices hsession
    have hdepart : session.depart = slot.depart := by
      obtain ⟨_, _, _, _, hdepart, -⟩ := ChargingPlanner.session?_eq_some hsession
      exact hdepart
    have hlt := hprices.arrived_lt hcapacity htarget
    obtain ⟨hgain, hroom⟩ := chargeEnergy_within htiles hcapacity hprices.arrives
      hlt.le (session.assignment.finish.since route.arrival)
    rw [← hprices.energy] at hgain hroom
    have hbattery : v.battery? = some battery := by
      rw [Vehicle.battery?, henergy]
      rfl
    obtain ⟨projection, hproject, hafter⟩ :=
      Vehicle.project?_carried hbattery hcharge session.tasks
    rw [hsame, hprices.chargeAfter_eq rfl hplain hlt hroom] at hafter
    refine ⟨projection, by rw [hdepart, hproject], hafter, hgain, hafter ▸ hroom, fun hends => ?_⟩
    have hreached := target_le_charge htiles hgap hcapacity hprices.arrives hlt.le
      htarget.2 (hprices.timeBetween_le hends)
    rw [hafter, hprices.energy]
    exact hclose.trans hreached

/-- A charger of 50 kW, a minute away, for a vehicle whose battery of 60 kWh is down to a tenth.
Charging it there to four fifths is over long before the idle time is, and leaves it with four
fifths. -/
theorem charging_reaches_target_tesla :
    let profile : EnergyProfile Rat := ⟨60, Curve.tesla, 0.2, 0.5⟩
    let v : Vehicle Rat := ⟨⟨0⟩, ⟨0⟩, .zero, .ofSecs 20000, 4, some ⟨profile, ⟨60, 6⟩⟩,
      ⟨[{ Task.stay ⟨0⟩ .zero (.ofSecs 20000) with
        status := .started, energy := some 0, startedAt := some .zero }]⟩⟩
    let planner : ChargingPlanner Rat := { policy := ⟨0.2, 0.8⟩ }
    let charger : Charger Rat := ⟨⟨0⟩, ⟨1⟩, 50, 2, []⟩
    let route : Route Rat := ⟨[⟨0⟩], ⟨0⟩, ⟨1⟩, .zero, .ofSecs 60, 1000⟩
    let slot : Slot := ⟨⟨0⟩, .zero, .ofSecs 20000⟩
    let gain := profile.chargeEnergy 6 50 (profile.chargeSecsTo 6 50 0.8)
    (0 ≤ gain ∧ 6 + gain ≤ 60 ∧ (0.8 - 1e-9) * 60 ≤ 6 + gain) ∧
      ∃ session projection, planner.session? v profile slot 6 charger route = some session ∧
        session.assignment.finish < slot.limit ∧
        v.project? session.depart session.tasks = some projection ∧
        projection.afterTasks = 6 + profile.driveEnergy 1000 + session.assignment.energy ∧
        projection.afterTasks ≤ 60 ∧ (0.8 - 1e-9) * 60 ≤ projection.afterTasks := by
  intro profile v planner charger route slot gain
  have hchecked : (Curve.tesla : Curve Rat).fault? = none :=
    Option.isNone_iff_eq_none.mp (by decide +kernel)
  have hpart : (planner.session? v profile slot 6 charger route).any
      (fun session => session.assignment.finish < slot.limit) = true := by
    decide +kernel
  obtain ⟨session, hsession, hends⟩ := (Option.any_eq_true _ _).mp hpart
  have hends : session.assignment.finish < slot.limit := of_decide_eq_true hends
  obtain ⟨hcharged, hsessions⟩ := @charging_reaches_target _ _ _ _ _ profile 50 0.8
    (Curve.make_of_fault? hchecked) (by decide +kernel) (by decide +kernel)
    (by unfold IsShare; decide +kernel) (by decide +kernel)
  obtain ⟨projection, hproject, hafter, -, hroom, hreached⟩ :=
    hsessions planner v ⟨60, 6⟩ slot 6 charger route session rfl rfl rfl rfl (by decide +kernel)
      (by decide) hsession
  exact ⟨hcharged 6 (by decide +kernel) (by decide +kernel) (by decide +kernel), session,
    projection, hsession, hends, hproject, hafter, hroom, hreached hends⟩

end EnergyProfile

end DemandTransport
