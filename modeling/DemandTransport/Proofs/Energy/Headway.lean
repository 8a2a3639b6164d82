import DemandTransport.Proofs.Energy.Inversion

/-!
# A start further ahead ends further ahead

The rate may fall along a piece, so a battery that holds more charges more slowly and a lead gets
smaller. It is never lost, though: in the time that remains in a piece the rate changes by less than
its sum at both ends, so of two batteries charged for the same time the one that is ahead stays
ahead. What takes one of them to the end of a piece takes the other one there with no less time
left, and from there on the same holds for the next piece.
-/

namespace DemandTransport

namespace Piece

/-- Where charging for a time leads that ends within the piece. -/
def reach (p : Piece Rat) (x left : Rat) : Rat :=
  x + 2 * p.rateAt x * left / (7200 - left * p.slope)

namespace Proper

variable {p : Piece Rat} {x y z left left' : Rat}

/-- The time between two states of charge is twice their distance over the mean of their rates. -/
theorem secsBetween_mul (h : p.Proper) (hfrom : p.fromSoc ≤ x) (hlt : x < y) (hto : y ≤ p.toSoc) :
    p.secsBetween x y * (p.rateAt x + p.rateAt y) = 7200 * (y - x) := by
  rw [secsBetween_of_lt hlt, div_mul_cancel₀ _ (h.rateAt_add_pos hfrom hlt hto).ne']

/-- A start further ahead takes no longer. -/
theorem secsBetween_anti (h : p.Proper) (hfrom : p.fromSoc ≤ x) (hle : x ≤ y) (hlt : y < z)
    (hto : z ≤ p.toSoc) : p.secsBetween y z ≤ p.secsBetween x z := by
  have hrate := h.rateAt_nonneg (hfrom.trans (hle.trans hlt.le)) hto
  have hden {w : Rat} (hfrom : p.fromSoc ≤ w) (hlt : w < z) :
      0 < 2 * p.rateAt z - p.slope * (z - w) := by
    have hsum := h.rateAt_add_pos hfrom hlt hto
    have hchange := h.rateAt_eq_add w z
    linarith
  have hsecs {w : Rat} (hlt : w < z) :
      p.secsBetween w z = 7200 * (z - w) / (2 * p.rateAt z - p.slope * (z - w)) := by
    rw [h.secsBetween_eq hlt, h.rateAt_eq_add w z]
    ring_nf
  rw [hsecs hlt, hsecs (hle.trans_lt hlt),
    div_le_div_iff₀ (hden (hfrom.trans hle) hlt) (hden hfrom (hle.trans_lt hlt))]
  nlinarith [mul_nonneg hrate (sub_nonneg.mpr hle)]

/-- In less time than it takes to the end of the piece, the rate changes by less than its sum at
both ends. -/
theorem left_mul_slope (h : p.Proper) (hfrom : p.fromSoc ≤ x) (hlt : x < p.toSoc)
    (hleft : 0 ≤ left) (hless : left < p.secsBetween x p.toSoc) :
    0 ≤ 7200 + left * p.slope ∧ 0 < 7200 - left * p.slope := by
  have hsecs := h.secsBetween_mul hfrom hlt (le_refl _)
  have hsum := h.rateAt_add_pos hfrom hlt (le_refl _)
  have hbegin := h.rateAt_nonneg hfrom hlt.le
  have hend := h.rateAt_nonneg (hfrom.trans hlt.le) (le_refl _)
  have hchange := h.rateAt_eq_add x p.toSoc
  have hwhole : p.secsBetween x p.toSoc * p.slope * (p.rateAt x + p.rateAt p.toSoc) =
      7200 * (p.rateAt p.toSoc - p.rateAt x) := by
    rw [mul_right_comm, hsecs, hchange]
    ring
  generalize p.secsBetween x p.toSoc = whole at *
  rcases le_total 0 p.slope with hrises | hfalls
  · have hpart : left * p.slope ≤ whole * p.slope := mul_le_mul_of_nonneg_right hless.le hrises
    refine ⟨by positivity, ?_⟩
    rcases hrises.lt_or_eq with hrises | hflat
    · have hstrict : left * p.slope < whole * p.slope := mul_lt_mul_of_pos_right hless hrises
      have hbound : whole * p.slope ≤ 7200 := by
        refine le_of_mul_le_mul_right ?_ hsum
        linarith
      linarith
    · rw [← hflat]
      norm_num
  · have hpart : whole * p.slope ≤ left * p.slope := mul_le_mul_of_nonpos_right hless.le hfalls
    have hbound : -7200 ≤ whole * p.slope := by
      refine le_of_mul_le_mul_right ?_ hsum
      linarith
    have hsink : left * p.slope ≤ 0 := mul_nonpos_of_nonneg_of_nonpos hleft hfalls
    exact ⟨by linarith, by linarith⟩

/-- Charging from further ahead leads further. -/
theorem reach_mono_start (h : p.Proper) (hfrom : p.fromSoc ≤ x) (hle : x ≤ y) (hlt : y < p.toSoc)
    (hleft : 0 ≤ left) (hless : left < p.secsBetween x p.toSoc) :
    p.reach x left ≤ p.reach y left := by
  obtain ⟨hlead, hden⟩ := h.left_mul_slope hfrom (hle.trans_lt hlt) hleft hless
  have hgain : p.reach y left - p.reach x left =
      (y - x) * ((7200 + left * p.slope) / (7200 - left * p.slope)) := by
    rw [reach, reach, h.rateAt_eq_add x y]
    generalize hsame : 7200 - left * p.slope = den at hden
    have hne := hden.ne'
    field_simp
    rw [← hsame]
    ring
  have hkept := mul_nonneg (sub_nonneg.mpr hle) (div_nonneg hlead hden.le)
  linarith

/-- Charging for longer leads further. -/
theorem reach_mono_left (h : p.Proper) (hfrom : p.fromSoc ≤ x) (hlt : x < p.toSoc)
    (hleft : 0 ≤ left) (hle : left ≤ left') (hless : left' < p.secsBetween x p.toSoc) :
    p.reach x left ≤ p.reach x left' := by
  have hrate := h.rateAt_nonneg hfrom hlt.le
  have hden := (h.left_mul_slope hfrom hlt hleft (hle.trans_lt hless)).2
  have hden' := (h.left_mul_slope hfrom hlt (hleft.trans hle) hless).2
  have hgain : 2 * p.rateAt x * left / (7200 - left * p.slope) ≤
      2 * p.rateAt x * left' / (7200 - left' * p.slope) := by
    rw [div_le_div_iff₀ hden hden']
    nlinarith [mul_nonneg hrate (sub_nonneg.mpr hle)]
  exact add_le_add_right hgain x

end Proper

namespace Sound

variable {p : Piece Rat} {x left : Rat}

/-- On a piece that is too narrow to count the rate is taken to be the one at its end, though the
slope is that of the whole piece: the slope leaves a half of two hours at least. -/
theorem left_mul_slope_of_narrow (h : p.Sound) (hnarrow : p.toSoc - p.fromSoc ≤ negligible)
    (hrate : 0 < p.toRate) (hfrom : p.fromSoc ≤ x) (hlt : x < p.toSoc) (hleft : 0 ≤ left)
    (hless : left < p.secsBetween x p.toSoc) : left * p.slope ≤ 3600 := by
  have hsecs : p.secsBetween x p.toSoc = 3600 * (p.toSoc - x) / p.toRate := by
    rw [secsBetween_of_lt hlt, rateAt_of_narrow hnarrow, rateAt_of_narrow hnarrow]
    field_simp
    ring
  rw [hsecs, lt_div_iff₀ hrate] at hless
  have hchange : (p.toSoc - p.fromSoc) * p.slope = p.toRate - p.fromRate :=
    mul_div_cancel₀ _ (sub_pos.mpr h.lasts).ne'
  rcases le_or_gt p.slope 0 with hfalls | hrises
  · have hsink : left * p.slope ≤ 0 := mul_nonpos_of_nonneg_of_nonpos hleft hfalls
    linarith
  · refine le_of_mul_le_mul_right ?_ hrate
    calc left * p.slope * p.toRate
        = left * p.toRate * p.slope := mul_right_comm _ _ _
      _ ≤ 3600 * (p.toSoc - x) * p.slope := mul_le_mul_of_nonneg_right hless.le hrises.le
      _ ≤ 3600 * (p.toSoc - p.fromSoc) * p.slope :=
        mul_le_mul_of_nonneg_right (by linarith) hrises.le
      _ = 3600 * (p.toRate - p.fromRate) := by rw [mul_assoc, hchange]
      _ ≤ 3600 * p.toRate := by linarith [h.fromRate]

/-- In less time than it takes to the end of a piece that is not dead, the slope leaves something of
two hours. -/
theorem left_mul_slope_lt (h : p.Sound) (hlive : ¬p.Dead) (hfrom : p.fromSoc ≤ x)
    (hlt : x < p.toSoc) (hleft : 0 ≤ left) (hless : left < p.secsBetween x p.toSoc) :
    0 < 7200 - left * p.slope := by
  by_cases hnarrow : p.toSoc - p.fromSoc ≤ negligible
  · have hbound := h.left_mul_slope_of_narrow hnarrow (h.toRate_pos hlive hnarrow) hfrom hlt hleft
      hless
    linarith
  · exact ((h.proper (not_le.mp hnarrow)).left_mul_slope hfrom hlt hleft hless).2

/-- Charging never leads back. -/
theorem le_reach (h : p.Sound) (hlive : ¬p.Dead) (hfrom : p.fromSoc ≤ x) (hlt : x < p.toSoc)
    (hleft : 0 ≤ left) (hless : left < p.secsBetween x p.toSoc) : x ≤ p.reach x left := by
  have hrate := h.rateAt_nonneg hfrom hlt.le
  exact le_add_of_nonneg_right (div_nonneg (mul_nonneg (mul_nonneg zero_le_two hrate) hleft)
    (h.left_mul_slope_lt hlive hfrom hlt hleft hless).le)

end Sound

end Piece

namespace LimitedCurve

variable {gap a s s' left left' : Rat} {p : Piece Rat} {pieces rest : List (Piece Rat)}

theorem less_of_slack {x : Rat} (h : left + slack < x) : left < x :=
  (lt_add_of_pos_right left slack_pos).trans h

/-- A charge that does not get to the end of a piece is where the piece leads it. -/
theorem advanceAlong_reach (hp : p.Sound) (hs : s < p.toSoc) (hleft : 0 < left)
    (hwhole : left + slack < p.secsBetween (max s p.fromSoc) p.toSoc) :
    advanceAlong (p :: rest) s left = min (p.reach (max s p.fromSoc) left) p.toSoc :=
  advanceAlong_within hp hs hleft hwhole

/-- Charging along pieces never leads back. A dead piece takes no time to count. -/
theorem le_advanceAlong (hsound : ∀ p ∈ pieces, p.Sound) : s ≤ advanceAlong pieces s left := by
  induction pieces generalizing s left with
  | nil => exact le_refl _
  | cons p rest ih =>
    obtain ⟨hp, hrest⟩ := List.forall_mem_cons.mp hsound
    by_cases hpassed : p.toSoc ≤ s
    · rw [advanceAlong_before hpassed]
      exact ih hrest
    by_cases hdone : left ≤ 0
    · rw [advanceAlong_done hdone]
    rw [not_le] at hpassed hdone
    by_cases hwhole : p.secsBetween (max s p.fromSoc) p.toSoc ≤ left + slack
    · rw [advanceAlong_pass hp hpassed hdone hwhole]
      exact hpassed.le.trans (ih hrest)
    · have hlive : ¬p.Dead := fun hdead => hwhole <| by
        rw [hdead.secsBetween_eq]
        exact (add_pos hdone slack_pos).le
      rw [not_le] at hwhole
      rw [advanceAlong_reach hp hpassed hdone hwhole]
      refine le_min ((le_max_left s p.fromSoc).trans ?_) hpassed.le
      exact hp.le_reach hlive (le_max_right _ _) (max_lt hpassed hp.lasts) hdone.le
        (less_of_slack hwhole)

theorem Tiles.le_advanceAlong (h : Tiles gap a pieces) : s ≤ advanceAlong pieces s left :=
  LimitedCurve.le_advanceAlong fun p hp => (h.mem p hp).1.sound

/-- Charging along a piece that is not charged to its end stays within it. -/
theorem advanceAlong_le_toSoc (hproper : p.Proper) (hs : s < p.toSoc)
    (hwhole : left + slack < p.secsBetween (max s p.fromSoc) p.toSoc) :
    advanceAlong (p :: rest) s left ≤ p.toSoc := by
  by_cases hdone : left ≤ 0
  · rw [advanceAlong_done hdone]
    exact hs.le
  · rw [advanceAlong_reach hproper.sound hs (not_le.mp hdone) hwhole]
    exact min_le_right _ _

/-- Of two charges that end within a piece, the one that is ahead stays ahead. -/
theorem advanceAlong_mono_within (hproper : p.Proper) (hs : s ≤ s') (hs' : s' < p.toSoc)
    (hdone : 0 < left) (hleft : left ≤ left')
    (hwhole : left + slack < p.secsBetween (max s p.fromSoc) p.toSoc)
    (hwhole' : left' + slack < p.secsBetween (max s' p.fromSoc) p.toSoc) :
    advanceAlong (p :: rest) s left ≤ advanceAlong (p :: rest) s' left' := by
  have hbegin : p.fromSoc ≤ max s p.fromSoc := le_max_right _ _
  have hlead : max s p.fromSoc ≤ max s' p.fromSoc := max_le_max_right _ hs
  have hroom : max s' p.fromSoc < p.toSoc := max_lt hs' hproper.lasts
  rw [advanceAlong_reach hproper.sound (hs.trans_lt hs') hdone hwhole,
    advanceAlong_reach hproper.sound hs' (hdone.trans_le hleft) hwhole']
  refine min_le_min_right _ ?_
  calc p.reach (max s p.fromSoc) left
      ≤ p.reach (max s' p.fromSoc) left :=
        hproper.reach_mono_start hbegin hlead hroom hdone.le (less_of_slack hwhole)
    _ ≤ p.reach (max s' p.fromSoc) left' :=
        hproper.reach_mono_left (hbegin.trans hlead) hroom hdone.le hleft (less_of_slack hwhole')

/-- Charging along pieces from further ahead and for longer never ends with less. -/
theorem Tiles.advanceAlong_mono (h : Tiles gap a pieces) (hs : s ≤ s') (hleft : left ≤ left') :
    advanceAlong pieces s left ≤ advanceAlong pieces s' left' := by
  induction h generalizing s s' left left' with
  | nil => exact hs
  | @cons a p rest proper after close more ih =>
    have htiles : Tiles gap a (p :: rest) := .cons proper after close more
    by_cases hdone : left ≤ 0
    · rw [advanceAlong_done hdone]
      exact hs.trans htiles.le_advanceAlong
    rw [not_le] at hdone
    have hdone' : 0 < left' := hdone.trans_le hleft
    by_cases hpassed : p.toSoc ≤ s
    · rw [advanceAlong_before hpassed, advanceAlong_before (hpassed.trans hs)]
      exact ih hs hleft
    rw [not_le] at hpassed
    have hbegin : p.fromSoc ≤ max s p.fromSoc := le_max_right _ _
    have hroom : max s p.fromSoc < p.toSoc := max_lt hpassed proper.lasts
    have hsecs : 0 ≤ p.secsBetween (max s p.fromSoc) p.toSoc :=
      (proper.secsBetween_pos hbegin hroom (le_refl _)).le
    by_cases hwhole : p.secsBetween (max s p.fromSoc) p.toSoc ≤ left + slack
    · rw [advanceAlong_pass proper.sound hpassed hdone hwhole]
      by_cases hpassed' : p.toSoc ≤ s'
      · rw [advanceAlong_before hpassed']
        exact ih hpassed' (by linarith)
      rw [not_le] at hpassed'
      have hsooner : p.secsBetween (max s' p.fromSoc) p.toSoc ≤
          p.secsBetween (max s p.fromSoc) p.toSoc :=
        proper.secsBetween_anti hbegin (max_le_max_right _ hs) (max_lt hpassed' proper.lasts)
          (le_refl _)
      rw [advanceAlong_pass proper.sound hpassed' hdone' (by linarith)]
      exact ih (le_refl _) (by linarith)
    rw [not_le] at hwhole
    by_cases hpassed' : p.toSoc ≤ s'
    · exact (advanceAlong_le_toSoc proper hpassed hwhole).trans
        (hpassed'.trans htiles.le_advanceAlong)
    rw [not_le] at hpassed'
    by_cases hwhole' : p.secsBetween (max s' p.fromSoc) p.toSoc ≤ left' + slack
    · rw [advanceAlong_pass proper.sound hpassed' hdone' hwhole']
      exact (advanceAlong_le_toSoc proper hpassed hwhole).trans more.le_advanceAlong
    · exact advanceAlong_mono_within proper hs hpassed' hdone hleft hwhole (not_le.mp hwhole')

/-- A fuller battery and a longer time at the charger never end with less charge, and charging leads
neither back nor beyond full. This holds for every curve that has passed its check and every
charger, as long as no piece is too narrow to count. -/
theorem advance_never_behind {name : String} {empty plateau taper full : CurvePoint Rat}
    {curve : Curve Rat} {capacity ratedKw : Rat}
    (hcurve : Curve.make name empty plateau taper full = .ok curve) (hcapacity : 0 < capacity)
    (hpower : 0 < ratedKw)
    (hwide : ∀ p ∈ (make curve capacity ratedKw).pieces,
      Piece.negligible < p.toSoc - p.fromSoc) (s s' secs secs' : Rat)
    (hs : 0 ≤ s) (hlead : s ≤ s') (hfull : s' ≤ 1) (hsecs : 0 ≤ secs) (hlonger : secs ≤ secs') :
    let limited := make curve capacity ratedKw
    s ≤ limited.advance s secs ∧ limited.advance s secs ≤ 1 ∧
      limited.advance s secs ≤ limited.advance s' secs' := by
  intro limited
  have htiles : Tiles (3 * Piece.negligible) 0 limited.pieces :=
    make_tiles (Curve.make_sound hcurve) hcapacity hpower hwide
  rw [advance_eq hs (hlead.trans hfull) hsecs,
    advance_eq (hs.trans hlead) hfull (hsecs.trans hlonger)]
  exact ⟨le_min htiles.le_advanceAlong (hlead.trans hfull), min_le_right _ _,
    min_le_min_right _ (htiles.advanceAlong_mono hlead hlonger)⟩

/-- A charger of 50 kW and a battery of 60 kWh with a preset curve: of two batteries that are
charged along the taper, where the rate falls, for ten minutes, the one that begins with nine tenths
stays ahead of the one that begins with three quarters, though it gains less. -/
theorem advance_never_behind_tesla :
    let limited : LimitedCurve Rat := make Curve.tesla 60 50
    limited.pieces.length = 5 ∧
      limited.advance 0.9 600 - 0.9 < limited.advance 0.75 600 - 0.75 ∧
      0.75 ≤ limited.advance 0.75 600 ∧ limited.advance 0.75 600 ≤ 1 ∧
      limited.advance 0.75 600 ≤ limited.advance 0.9 600 := by
  intro limited
  have hchecked : (Curve.tesla : Curve Rat).fault? = none :=
    Option.isNone_iff_eq_none.mp (by decide +kernel)
  exact ⟨by decide +kernel, by decide +kernel, @advance_never_behind _ _ _ _ _ _ 60 50
    (Curve.make_of_fault? hchecked) (by decide +kernel) (by decide +kernel) (by decide +kernel)
    0.75 0.9 600 600 (by decide +kernel) (by decide +kernel) (by decide +kernel)
    (by decide +kernel) (by decide +kernel)⟩

end LimitedCurve

end DemandTransport
