import DemandTransport.Proofs.Energy.Pieces

/-!
# Charging for as long as it takes

How long charging takes is added up piece by piece, and how far a charge gets in a given time is
found piece by piece by solving for the share. The one inverts the other: charging for as long as it
takes to get somewhere leads there exactly, except that a piece is finished when only a moment of it
would be left, and that a gap between two pieces is not crossed.
-/

namespace DemandTransport

namespace LimitedCurve

variable {gap a lower upper s t left : Rat} {p : Piece Rat} {pieces rest : List (Piece Rat)}

theorem slack_eq : (slack : Rat) = 1 / 10 ^ 6 := by
  decide +kernel

theorem slack_pos : (0 : Rat) < slack := by
  rw [slack_eq]
  norm_num

/-! ## Adding up -/

/-- Seconds to charge from one state of charge to another along some pieces. -/
def secsAlong (lower upper : Rat) (pieces : List (Piece Rat)) : Rat :=
  (pieces.filterMap (secsIn lower upper)).sum

theorem timeBetween_eq {limited : LimitedCurve Rat} (hlower : 0 ≤ lower) (hlt : lower < upper)
    (hupper : upper ≤ 1) :
    limited.timeBetween lower upper = secsAlong lower upper limited.pieces := by
  unfold timeBetween
  rw [Scalar.clamp_of_mem hlower (hlt.le.trans hupper),
    Scalar.clamp_of_mem (hlower.trans hlt.le) hupper, if_neg (not_le.mpr hlt)]
  exact List.sum_eq_foldl.symm

/-- Charging takes no time if the battery is there already. -/
theorem timeBetween_of_le {limited : LimitedCurve Rat}
    (h : Scalar.clamp upper 0 1 ≤ Scalar.clamp lower 0 1) : limited.timeBetween lower upper = 0 :=
  if_pos h

/-- A piece that lies before where charging begins takes no time. -/
theorem secsAlong_before (hbefore : p.toSoc ≤ lower) :
    secsAlong lower upper (p :: rest) = secsAlong lower upper rest := by
  have hnone : secsIn lower upper p = none := if_pos (.inl hbefore)
  simp [secsAlong, hnone]

/-- Nor does one behind where it ends. -/
theorem secsAlong_behind (hbehind : upper ≤ p.fromSoc) :
    secsAlong lower upper (p :: rest) = secsAlong lower upper rest := by
  have hnone : secsIn lower upper p = none := if_pos (.inr hbehind)
  simp [secsAlong, hnone]

theorem secsAlong_within (hlower : lower < p.toSoc) (hupper : p.fromSoc < upper) :
    secsAlong lower upper (p :: rest) =
      p.secsBetween (max lower p.fromSoc) (min upper p.toSoc) + secsAlong lower upper rest := by
  have hsome : secsIn lower upper p =
      some (p.secsBetween (max lower p.fromSoc) (min upper p.toSoc)) := by
    unfold secsIn
    rw [if_neg (not_or.mpr ⟨not_le.mpr hlower, not_le.mpr hupper⟩), Scalar.greater_eq_max,
      Trajectory.lesser_eq_min]
    rfl
  simp [secsAlong, hsome]

/-- Pieces behind where charging ends take no time. -/
theorem Tiles.secsAlong_eq_zero (h : Tiles gap a pieces) (hupper : upper ≤ a) :
    secsAlong lower upper pieces = 0 := by
  induction h with
  | nil => rfl
  | cons proper after close more ih =>
    have hlasts := proper.lasts
    rw [secsAlong_behind (by linarith), ih (by linarith)]

theorem Tiles.secsAlong_nonneg (h : Tiles gap a pieces) : 0 ≤ secsAlong lower upper pieces := by
  induction h with
  | nil => exact le_refl _
  | @cons a p rest proper after close more ih =>
    by_cases hlower : p.toSoc ≤ lower
    · rwa [secsAlong_before hlower]
    by_cases hupper : upper ≤ p.fromSoc
    · rwa [secsAlong_behind hupper]
    rw [not_le] at hlower hupper
    rw [secsAlong_within hlower hupper]
    have hsecs : 0 ≤ p.secsBetween (max lower p.fromSoc) (min upper p.toSoc) := by
      rcases lt_or_ge (max lower p.fromSoc) (min upper p.toSoc) with hlt | hge
      · exact (proper.secsBetween_pos (le_max_right _ _) hlt (min_le_right _ _)).le
      · exact (Piece.secsBetween_of_le hge).ge
    exact add_nonneg hsecs ih

/-- Only where charging begins within the pieces matters. -/
theorem Tiles.secsAlong_from (h : Tiles gap a pieces) (hlower : lower ≤ a) :
    secsAlong lower upper pieces = secsAlong a upper pieces := by
  have hsame : ∀ p ∈ pieces, secsIn lower upper p = secsIn a upper p := by
    intro p hp
    obtain ⟨hproper, hafter, -⟩ := h.mem p hp
    have hlasts := hproper.lasts
    have hnot : ¬p.toSoc ≤ lower ∧ ¬p.toSoc ≤ a := ⟨by linarith, by linarith⟩
    have hmax : max lower p.fromSoc = max a p.fromSoc := by
      rw [max_eq_right hafter, max_eq_right (hlower.trans hafter)]
    simp only [secsIn, hnot.1, hnot.2, false_or, Scalar.greater_eq_max, hmax]
  rw [secsAlong, secsAlong, List.filterMap_congr hsame]

/-! ## Getting along -/

/-- When no time is left the charge stays. -/
theorem advanceAlong_done (hleft : left ≤ 0) : advanceAlong pieces s left = s := by
  induction pieces with
  | nil => rfl
  | cons p rest ih =>
    by_cases hbefore : p.toSoc ≤ s
    · rw [advanceAlong, if_pos hbefore, ih]
    · rw [advanceAlong, if_neg hbefore, if_pos hleft]

/-- A piece that lies before the charge does not matter. -/
theorem advanceAlong_before (hbefore : p.toSoc ≤ s) :
    advanceAlong (p :: rest) s left = advanceAlong rest s left :=
  if_pos hbefore

/-- A piece is charged along to its end if next to no time is missing. -/
theorem advanceAlong_pass (hp : p.Sound) (hs : s < p.toSoc) (hleft : 0 < left)
    (hwhole : p.secsBetween (max s p.fromSoc) p.toSoc ≤ left + slack) :
    advanceAlong (p :: rest) s left =
      advanceAlong rest p.toSoc (left - p.secsBetween (max s p.fromSoc) p.toSoc) := by
  rw [Piece.secsBetween, hp.rateAt_toSoc] at *
  rw [advanceAlong, if_neg (not_le.mpr hs), if_neg (not_le.mpr hleft)]
  simp only [Scalar.greater_eq_max]
  exact if_pos hwhole

/-- Otherwise the charge ends within the piece. -/
theorem advanceAlong_within (hp : p.Sound) (hs : s < p.toSoc) (hleft : 0 < left)
    (hwhole : left + slack < p.secsBetween (max s p.fromSoc) p.toSoc) :
    advanceAlong (p :: rest) s left =
      min (max s p.fromSoc + 2 * p.rateAt (max s p.fromSoc) * left / (7200 - left * p.slope))
        p.toSoc := by
  rw [Piece.secsBetween, hp.rateAt_toSoc] at hwhole
  rw [advanceAlong, if_neg (not_le.mpr hs), if_neg (not_le.mpr hleft)]
  simp only [Scalar.greater_eq_max]
  rw [if_neg (not_le.mpr hwhole), advanceAlong_done (le_refl _), Trajectory.lesser_eq_min]
  norm_num

/-- Charging for as long as it takes to get somewhere in a piece leads there, or to the end of the
piece if next to no time is missing. -/
theorem advanceAlong_inside (hproper : p.Proper) (hs : s < p.toSoc) (hfrom : p.fromSoc < t)
    (hst : s ≤ t) (hto : t ≤ p.toSoc)
    (hleft : left = p.secsBetween (max s p.fromSoc) t) :
    advanceAlong (p :: rest) s left = t ∨
      advanceAlong (p :: rest) s left = p.toSoc ∧
        p.secsBetween (max s p.fromSoc) p.toSoc ≤ left + slack := by
  have hbegin : p.fromSoc ≤ max s p.fromSoc := le_max_right _ _
  rcases (max_le hst hfrom.le).eq_or_lt with hthere | hlt
  · rw [hthere, Piece.secsBetween_of_le (le_refl t)] at hleft
    rcases max_choice s p.fromSoc with hmax | hmax
    · rw [advanceAlong_done hleft.le]
      exact .inl (hmax.symm.trans hthere)
    · rw [hmax] at hthere
      exact absurd hthere hfrom.ne
  · have hpos := hproper.secsBetween_pos hbegin hlt hto
    rw [← hleft] at hpos
    by_cases hjump : p.secsBetween (max s p.fromSoc) p.toSoc ≤ left + slack
    · have hmore := hproper.secsBetween_mono hbegin hlt hto (le_refl _)
      rw [← hleft] at hmore
      rw [advanceAlong_pass hproper.sound hs hpos hjump, advanceAlong_done (sub_nonpos.mpr hmore)]
      exact .inr ⟨rfl, hjump⟩
    · have hrate : 0 < p.rateAt (max s p.fromSoc) := by
        refine (hproper.rateAt_nonneg hbegin (by linarith)).lt_of_ne' fun hdead => hjump ?_
        rw [hleft, hproper.secsBetween_of_dead hdead hbegin hlt hto,
          hproper.secsBetween_of_dead hdead hbegin (hlt.trans_le hto) (le_refl _), slack_eq]
        norm_num
      rw [advanceAlong_within hproper.sound hs hpos (not_le.mp hjump), hleft,
        hproper.gain_eq hrate hbegin hlt hto, add_sub_cancel, min_eq_left hto]
      exact .inl rfl

/-- Charging along pieces for as long as it takes to get somewhere leads there up to a gap, or to
the end of the piece in which that lies if next to no time is missing. -/
theorem Tiles.advanceAlong_secsAlong (h : Tiles gap a pieces) (hbegins : a ≤ s) (hst : s ≤ t)
    (ht : t ≤ 1) :
    |advanceAlong pieces s (secsAlong s t pieces) - t| ≤ gap ∨
      ∃ p ∈ pieces, p.fromSoc < t ∧ t ≤ p.toSoc ∧
        advanceAlong pieces s (secsAlong s t pieces) = p.toSoc ∧
        secsAlong s p.toSoc pieces ≤ secsAlong s t pieces + slack := by
  induction h generalizing s with
  | nil full close =>
    exact .inl (abs_le.mpr ⟨by rw [advanceAlong]; linarith, by rw [advanceAlong]; linarith⟩)
  | @cons a p rest proper after close more ih =>
    have hlasts := proper.lasts
    by_cases hpassed : p.toSoc ≤ s
    · rw [secsAlong_before hpassed, advanceAlong_before hpassed]
      refine (ih hpassed hst).imp_right ?_
      rintro ⟨q, hq, hfrom, hto, hends, hsecs⟩
      exact ⟨q, List.mem_cons_of_mem p hq, hfrom, hto, hends, by rwa [secsAlong_before hpassed]⟩
    rw [not_le] at hpassed
    by_cases hstop : t ≤ p.fromSoc
    · rw [secsAlong_behind hstop, more.secsAlong_eq_zero (by linarith),
        advanceAlong_done (le_refl 0)]
      exact .inl (abs_le.mpr ⟨by linarith, by linarith⟩)
    rw [not_le] at hstop
    have hbegin : p.fromSoc ≤ max s p.fromSoc := le_max_right _ _
    by_cases hbeyond : p.toSoc < t
    · have hwhole {u : Rat} (hu : p.toSoc ≤ u) : secsAlong s u (p :: rest) =
          p.secsBetween (max s p.fromSoc) p.toSoc + secsAlong p.toSoc u rest := by
        rw [secsAlong_within hpassed (by linarith), min_eq_right hu, more.secsAlong_from hpassed.le]
      have hlater : 0 ≤ secsAlong p.toSoc t rest := more.secsAlong_nonneg
      have hsecs := proper.secsBetween_pos hbegin (max_lt hpassed hlasts) (le_refl _)
      have hslack : (0 : Rat) < slack := slack_pos
      rw [hwhole hbeyond.le, advanceAlong_pass proper.sound hpassed (by linarith) (by linarith),
        add_sub_cancel_left]
      refine (ih (le_refl _) hbeyond.le).imp_right ?_
      rintro ⟨q, hq, hfrom, hto, hends, hsecs⟩
      refine ⟨q, List.mem_cons_of_mem p hq, hfrom, hto, hends, ?_⟩
      rw [hwhole (hbeyond.le.trans hto)]
      linarith
    · rw [not_lt] at hbeyond
      have hinside {u : Rat} (hfrom : p.fromSoc < u) (hto : u ≤ p.toSoc) :
          secsAlong s u (p :: rest) = p.secsBetween (max s p.fromSoc) u := by
        rw [secsAlong_within hpassed hfrom, min_eq_left hto, more.secsAlong_eq_zero hto, add_zero]
      rcases advanceAlong_inside proper hpassed hstop hst hbeyond (hinside hstop hbeyond) with
        hthere | ⟨hends, hsecs⟩
      · rw [hthere, sub_self, abs_zero]
        exact .inl (by linarith)
      · rw [← hinside hlasts (le_refl _)] at hsecs
        exact .inr ⟨p, List.mem_cons_self, hstop, hbeyond, hends, hsecs⟩

/-! ## Both together -/

theorem advance_eq {limited : LimitedCurve Rat} (hs : 0 ≤ s) (hfull : s ≤ 1) (hleft : 0 ≤ left) :
    limited.advance s left = min (advanceAlong limited.pieces s left) 1 := by
  rw [advance, Scalar.clamp_of_mem hs hfull, Scalar.greater_eq_max, max_eq_left hleft,
    Trajectory.lesser_eq_min]

theorem Tiles.advance_timeBetween {limited : LimitedCurve Rat} (h : Tiles gap 0 limited.pieces)
    (hs : 0 ≤ s) (hst : s < t) (ht : t ≤ 1) :
    |limited.advance s (limited.timeBetween s t) - t| ≤ gap ∨
      ∃ p ∈ limited.pieces, p.fromSoc < t ∧ t ≤ p.toSoc ∧
        limited.advance s (limited.timeBetween s t) = p.toSoc ∧
        limited.timeBetween s p.toSoc ≤ limited.timeBetween s t + slack := by
  rw [timeBetween_eq hs hst ht, advance_eq hs (hst.le.trans ht) h.secsAlong_nonneg]
  refine (h.advanceAlong_secsAlong hs hst.le ht).imp ?_ ?_
  · intro hnear
    rcases le_total (advanceAlong limited.pieces s (secsAlong s t limited.pieces)) 1 with hle | hge
    · rwa [min_eq_left hle]
    · rw [min_eq_right hge]
      rw [abs_le] at hnear ⊢
      exact ⟨by linarith, by linarith⟩
  · rintro ⟨p, hp, hfrom, hto, hends, hsecs⟩
    have hfull := (h.mem p hp).2.2
    refine ⟨p, hp, hfrom, hto, by rw [hends, min_eq_left hfull], ?_⟩
    rwa [timeBetween_eq hs (hst.trans_le hto) hfull]

/-- A battery is full when it has been charged for as long as that takes. -/
theorem Tiles.advance_full {limited : LimitedCurve Rat} (h : Tiles gap 0 limited.pieces)
    (hgap : 0 ≤ gap) (hs : 0 ≤ s) (hfull : s ≤ 1) :
    |limited.advance s (limited.timeBetween s 1) - 1| ≤ gap := by
  rcases hfull.lt_or_eq with hlt | rfl
  · rcases h.advance_timeBetween hs hlt (le_refl 1) with hnear | ⟨p, hp, -, hto, hends, -⟩
    · exact hnear
    · rw [hends, le_antisymm (h.mem p hp).2.2 hto, sub_self, abs_zero]
      exact hgap
  · rw [timeBetween_of_le (le_refl _), advance_eq hs (le_refl 1) (le_refl 0),
      advanceAlong_done (le_refl 0), min_self, sub_self, abs_zero]
    exact hgap

/-- Charging for as long as it takes to get from one state of charge to another leads there, or to
the end of the piece in which it lies, for which it takes a microsecond more at most. This holds for
every curve that has passed its check and every charger, as long as no piece is too narrow to count.
In particular, a battery is full when it has been charged for the time that this takes. -/
theorem advance_inverts_timeBetween {name : String} {empty plateau taper full : CurvePoint Rat}
    {curve : Curve Rat} {capacity ratedKw : Rat}
    (hcurve : Curve.make name empty plateau taper full = .ok curve) (hcapacity : 0 < capacity)
    (hpower : 0 < ratedKw)
    (hwide : ∀ p ∈ (make curve capacity ratedKw).pieces,
      Piece.negligible < p.toSoc - p.fromSoc) :
    (∀ s t, 0 ≤ s → s < t → t ≤ 1 →
      let limited := make curve capacity ratedKw
      let u := limited.advance s (limited.timeBetween s t)
      |u - t| ≤ 1e-9 ∨ ∃ p ∈ limited.pieces, p.fromSoc < t ∧ t ≤ p.toSoc ∧ u = p.toSoc ∧
        limited.timeBetween s u - limited.timeBetween s t ≤ 1e-6) ∧
      ∀ battery : Battery Rat, battery.InRange → battery.capacity = capacity →
        |battery.shareAfterCharging curve ratedKw (battery.remainingChargeTime curve ratedKw) - 1| ≤
          1e-9 := by
  have htiles := make_tiles (Curve.make_sound hcurve) hcapacity hpower hwide
  have hgap : 3 * Piece.negligible ≤ (1e-9 : Rat) := by
    rw [Piece.negligible_eq]
    norm_num
  have hslack : (slack : Rat) = 1e-6 := by
    rw [slack_eq]
    norm_num
  refine ⟨fun s t hs hst ht => ?_, fun battery hrange hsame => ?_⟩
  · dsimp only
    refine (htiles.advance_timeBetween hs hst ht).imp (fun hnear => hnear.trans hgap) ?_
    rintro ⟨p, hp, hfrom, hto, hends, hsecs⟩
    refine ⟨p, hp, hfrom, hto, hends, ?_⟩
    rw [hends, ← hslack]
    linarith
  · subst hsame
    have hshare : 0 ≤ battery.share ∧ battery.share ≤ 1 :=
      ⟨div_nonneg hrange.1 hcapacity.le, (div_le_one₀ hcapacity).mpr hrange.2⟩
    have htarget : battery.remainingChargeTime curve ratedKw =
        (make curve battery.capacity ratedKw).timeBetween battery.share 1 := by
      unfold Battery.remainingChargeTime Battery.chargeTime
      norm_num
    have hnegligible : (0 : Rat) ≤ 3 * Piece.negligible :=
      mul_nonneg (by norm_num) Piece.negligible_pos.le
    rw [htarget]
    exact (htiles.advance_full hnegligible hshare.1 hshare.2).trans hgap

/-- A charger of 50 kW cuts a preset curve into five pieces for a battery of 60 kWh. What charging
from a tenth to nine tenths takes leads back there, and a battery that holds a tenth is full after
its remaining time. -/
theorem advance_inverts_timeBetween_tesla :
    let limited : LimitedCurve Rat := make Curve.tesla 60 50
    let u := limited.advance 0.1 (limited.timeBetween 0.1 0.9)
    let battery : Battery Rat := ⟨60, 6⟩
    limited.pieces.length = 5 ∧
      (|u - 0.9| ≤ 1e-9 ∨ ∃ p ∈ limited.pieces, p.fromSoc < 0.9 ∧ 0.9 ≤ p.toSoc ∧ u = p.toSoc ∧
        limited.timeBetween 0.1 u - limited.timeBetween 0.1 0.9 ≤ 1e-6) ∧
      |battery.shareAfterCharging Curve.tesla 50 (battery.remainingChargeTime Curve.tesla 50) - 1| ≤
        1e-9 := by
  intro limited u battery
  have hchecked : (Curve.tesla : Curve Rat).fault? = none :=
    Option.isNone_iff_eq_none.mp (by decide +kernel)
  obtain ⟨hinverts, hfull⟩ := @advance_inverts_timeBetween _ _ _ _ _ _ 60 50
    (Curve.make_of_fault? hchecked) (by decide +kernel) (by decide +kernel) (by decide +kernel)
  exact ⟨by decide +kernel, hinverts 0.1 0.9 (by decide +kernel) (by decide +kernel)
    (by decide +kernel), hfull battery (by unfold Battery.InRange; decide +kernel) rfl⟩

end LimitedCurve

end DemandTransport
