import Mathlib.Algebra.Order.Field.Basic
import Mathlib.Tactic.FieldSimp
import Mathlib.Tactic.NormNum
import Mathlib.Tactic.Ring
import Mathlib.Tactic.Tauto
import DemandTransport.Energy.LimitedCurve
import DemandTransport.Proofs.Energy.Outlook

/-!
# Curves piece by piece

A curve that has passed its check and is limited by the power of a charger falls into pieces on
which the rate changes evenly, is nowhere negative, and is nothing at one end at most. The pieces
follow on each other from empty to full. Segments without width are left out, so there may be gaps,
but no larger ones than three such widths.
-/

namespace DemandTransport

namespace Scalar

theorem greater_eq_max (a b : Rat) : greater a b = max a b := by
  unfold greater
  by_cases hle : b ≤ a
  · rw [if_pos hle, max_eq_left hle]
  · rw [if_neg hle, max_eq_right (le_of_not_ge hle)]
    simp

/-- What is within the bounds is left as it is. -/
theorem clamp_of_mem {x lo hi : Rat} (hlo : lo ≤ x) (hhi : x ≤ hi) : clamp x lo hi = x := by
  unfold clamp
  rw [if_neg (not_lt.mpr hlo)]
  exact if_neg (not_lt.mpr hhi)

end Scalar

namespace CurvePoint

/-- The rate at a state of charge on the line through two points. -/
def lineTo (a b : CurvePoint Rat) (s : Rat) : Rat :=
  a.rate + (b.rate - a.rate) * (s - a.soc) / (b.soc - a.soc)

/-- The rate is the mean of the rates at the ends, weighted by the distances to them. -/
theorem lineTo_mul {a b : CurvePoint Rat} (h : a.soc < b.soc) (s : Rat) :
    a.lineTo b s * (b.soc - a.soc) = a.rate * (b.soc - s) + b.rate * (s - a.soc) := by
  have hwidth : b.soc - a.soc ≠ 0 := (sub_pos.mpr h).ne'
  unfold lineTo
  field_simp
  ring

end CurvePoint

/-! ## Pieces -/

theorem Piece.negligible_eq : (Piece.negligible : Rat) = 1 / 10 ^ 12 := by
  decide +kernel

theorem Piece.negligible_pos : (0 : Rat) < Piece.negligible := by
  rw [negligible_eq]
  norm_num

theorem Piece.lt_of_wide {x y : Rat} (h : negligible < y - x) : x < y :=
  sub_pos.mp (negligible_pos.trans h)

/-- Seconds to charge along a piece between two states of charge in it. -/
def Piece.secsBetween (p : Piece Rat) (x y : Rat) : Rat :=
  trapezoidSecs (y - x) (p.rateAt x) (p.rateAt y)

/-- Charging takes twice the charge over the sum of the rates at the ends. -/
theorem Piece.secsBetween_of_lt {p : Piece Rat} {x y : Rat} (h : x < y) :
    p.secsBetween x y = 7200 * (y - x) / (p.rateAt x + p.rateAt y) := by
  have hsecs : p.secsBetween x y = (2.0 * 3600.0 : Rat) * (y - x) / (p.rateAt x + p.rateAt y) :=
    if_neg (not_le.mpr (sub_pos.mpr h))
  rw [hsecs]
  norm_num

/-- There is no time between a state of charge and an earlier one. -/
theorem Piece.secsBetween_of_le {p : Piece Rat} {x y : Rat} (h : y ≤ x) : p.secsBetween x y = 0 :=
  if_pos (sub_nonpos.mpr h)

/-- A piece that charges a battery, however narrow it is. -/
structure Piece.Sound (p : Piece Rat) : Prop where
  /-- It has a width. -/
  lasts : p.fromSoc < p.toSoc
  fromRate : 0 ≤ p.fromRate
  toRate : 0 ≤ p.toRate
  /-- The rate is not nothing at both ends. -/
  alive : 0 < p.fromRate + p.toRate

/-- A piece along which a battery can be charged. -/
structure Piece.Proper (p : Piece Rat) : Prop where
  /-- It has a width. -/
  wide : negligible < p.toSoc - p.fromSoc
  fromRate : 0 ≤ p.fromRate
  toRate : 0 ≤ p.toRate
  /-- The rate is not nothing at both ends. -/
  alive : 0 < p.fromRate + p.toRate

/-- A sound piece that is wide enough to count is charged along. -/
theorem Piece.Sound.proper {p : Piece Rat} (h : p.Sound)
    (hwide : Piece.negligible < p.toSoc - p.fromSoc) : p.Proper :=
  ⟨hwide, h.fromRate, h.toRate, h.alive⟩

namespace Piece.Proper

variable {p : Piece Rat} {x y z : Rat}

theorem lasts (h : p.Proper) : p.fromSoc < p.toSoc :=
  lt_of_wide h.wide

theorem width_pos (h : p.Proper) : 0 < p.toSoc - p.fromSoc :=
  sub_pos.mpr h.lasts

/-- The rate is the mean of the rates at the ends, weighted by the distances to them. -/
theorem rateAt_mul (h : p.Proper) (x : Rat) :
    p.rateAt x * (p.toSoc - p.fromSoc) =
      p.fromRate * (p.toSoc - x) + p.toRate * (x - p.fromSoc) := by
  have hrate : p.rateAt x =
      (⟨p.fromSoc, p.fromRate⟩ : CurvePoint Rat).lineTo ⟨p.toSoc, p.toRate⟩ x :=
    if_neg (not_le.mpr h.wide)
  rw [hrate]
  exact CurvePoint.lineTo_mul h.lasts x

/-- At the upper end the rate is the second one. -/
theorem rateAt_toSoc (h : p.Proper) : p.rateAt p.toSoc = p.toRate := by
  have hrate := h.rateAt_mul p.toSoc
  rw [sub_self, mul_zero, zero_add] at hrate
  exact mul_right_cancel₀ h.width_pos.ne' hrate

/-- From one state of charge to another the rate changes by the slope. -/
theorem rateAt_eq_add (h : p.Proper) (x y : Rat) :
    p.rateAt y = p.rateAt x + p.slope * (y - x) := by
  have hwidth := h.width_pos.ne'
  have hslope : p.slope = (p.toRate - p.fromRate) / (p.toSoc - p.fromSoc) := rfl
  refine mul_right_cancel₀ hwidth ?_
  rw [add_mul, h.rateAt_mul, h.rateAt_mul, hslope]
  field_simp
  ring

/-- Within the piece the rate is nowhere negative. -/
theorem rateAt_nonneg (h : p.Proper) (hfrom : p.fromSoc ≤ x) (hto : x ≤ p.toSoc) :
    0 ≤ p.rateAt x := by
  refine nonneg_of_mul_nonneg_left ?_ h.width_pos
  rw [h.rateAt_mul]
  exact add_nonneg (mul_nonneg h.fromRate (sub_nonneg.mpr hto))
    (mul_nonneg h.toRate (sub_nonneg.mpr hfrom))

/-- The rate is nothing at one state of charge at most. -/
theorem rateAt_add_pos (h : p.Proper) (hfrom : p.fromSoc ≤ x) (hlt : x < y) (hto : y ≤ p.toSoc) :
    0 < p.rateAt x + p.rateAt y := by
  refine pos_of_mul_pos_left ?_ h.width_pos.le
  rw [add_mul, h.rateAt_mul, h.rateAt_mul]
  have hleft : 0 < (p.toSoc - x) + (p.toSoc - y) := by linarith
  have hright : 0 < (x - p.fromSoc) + (y - p.fromSoc) := by linarith
  have hsum : 0 < p.fromRate * ((p.toSoc - x) + (p.toSoc - y)) +
      p.toRate * ((x - p.fromSoc) + (y - p.fromSoc)) := by
    rcases h.fromRate.lt_or_eq with hpos | hzero
    · exact add_pos_of_pos_of_nonneg (mul_pos hpos hleft) (mul_nonneg h.toRate hright.le)
    · have halive := h.alive
      rw [← hzero, zero_add] at halive
      rw [← hzero, zero_mul, zero_add]
      exact mul_pos halive hright
  linarith

/-- The sum of the rates follows from the one where charging begins. -/
theorem secsBetween_eq (h : p.Proper) (hlt : x < y) :
    p.secsBetween x y = 7200 * (y - x) / (2 * p.rateAt x + p.slope * (y - x)) := by
  rw [secsBetween_of_lt hlt, h.rateAt_eq_add x y, ← add_assoc, ← two_mul]

/-- Charging takes time. -/
theorem secsBetween_pos (h : p.Proper) (hfrom : p.fromSoc ≤ x) (hlt : x < y) (hto : y ≤ p.toSoc) :
    0 < p.secsBetween x y := by
  rw [secsBetween_of_lt hlt]
  exact div_pos (mul_pos (by norm_num) (sub_pos.mpr hlt)) (h.rateAt_add_pos hfrom hlt hto)

/-- Charging further takes no less. -/
theorem secsBetween_mono (h : p.Proper) (hfrom : p.fromSoc ≤ x) (hlt : x < y) (hle : y ≤ z)
    (hto : z ≤ p.toSoc) : p.secsBetween x y ≤ p.secsBetween x z := by
  have hrate := h.rateAt_nonneg hfrom (by linarith)
  have hden {w : Rat} (hlt : x < w) (hto : w ≤ p.toSoc) :
      0 < 2 * p.rateAt x + p.slope * (w - x) := by
    have hsum := h.rateAt_add_pos hfrom hlt hto
    rw [h.rateAt_eq_add x w] at hsum
    linarith
  rw [h.secsBetween_eq hlt, h.secsBetween_eq (hlt.trans_le hle),
    div_le_div_iff₀ (hden hlt (hle.trans hto)) (hden (hlt.trans_le hle) hto)]
  nlinarith [mul_nonneg hrate (sub_nonneg.mpr hle)]

/-- Where the rate is nothing, charging takes the same time wherever it leads. -/
theorem secsBetween_of_dead (h : p.Proper) (hrate : p.rateAt x = 0) (hfrom : p.fromSoc ≤ x)
    (hlt : x < y) (hto : y ≤ p.toSoc) : p.secsBetween x y = 7200 / p.slope := by
  have hsum := h.rateAt_add_pos hfrom hlt hto
  rw [h.rateAt_eq_add x y, hrate, zero_add, zero_add] at hsum
  have hslope : p.slope ≠ 0 := by
    rintro hzero
    simp [hzero] at hsum
  have hwidth : y - x ≠ 0 := (sub_pos.mpr hlt).ne'
  rw [h.secsBetween_eq hlt, hrate]
  field_simp
  ring

/-- Elsewhere the share that is charged can be found from the time. -/
theorem gain_eq (h : p.Proper) (hrate : 0 < p.rateAt x) (hfrom : p.fromSoc ≤ x) (hlt : x < y)
    (hto : y ≤ p.toSoc) :
    2 * p.rateAt x * p.secsBetween x y / (7200 - p.secsBetween x y * p.slope) = y - x := by
  have hsum := h.rateAt_add_pos hfrom hlt hto
  rw [h.rateAt_eq_add x y, ← add_assoc, ← two_mul] at hsum
  rw [h.secsBetween_eq hlt]
  generalize y - x = d at *
  generalize hden : 2 * p.rateAt x + p.slope * d = den at *
  have hne : den ≠ 0 := hsum.ne'
  have hleft : 7200 - 7200 * d / den * p.slope = 7200 * (2 * p.rateAt x) / den := by
    field_simp
    linarith
  rw [hleft]
  field_simp

end Piece.Proper

namespace Piece

variable {p : Piece Rat} {x y : Rat}

theorem Proper.sound (h : p.Proper) : p.Sound :=
  ⟨h.lasts, h.fromRate, h.toRate, h.alive⟩

/-- A piece that is too narrow to count and ends without a rate. -/
def Dead (p : Piece Rat) : Prop :=
  p.toSoc - p.fromSoc ≤ negligible ∧ p.toRate = 0

instance (p : Piece Rat) : Decidable p.Dead :=
  inferInstanceAs (Decidable (_ ∧ _))

/-- All along a piece that is too narrow to count, the rate is the one at its end. -/
theorem rateAt_of_narrow (h : p.toSoc - p.fromSoc ≤ negligible) (x : Rat) :
    p.rateAt x = p.toRate :=
  if_pos h

/-- No time is counted along a dead piece: a division by nothing comes to nothing here. -/
theorem Dead.secsBetween_eq (h : p.Dead) (x y : Rat) : p.secsBetween x y = 0 := by
  rcases le_or_gt y x with hle | hlt
  · exact secsBetween_of_le hle
  · rw [secsBetween_of_lt hlt, rateAt_of_narrow h.1, rateAt_of_narrow h.1, h.2, add_zero, div_zero]

namespace Sound

theorem rateAt_toSoc (h : p.Sound) : p.rateAt p.toSoc = p.toRate := by
  by_cases hnarrow : p.toSoc - p.fromSoc ≤ negligible
  · exact rateAt_of_narrow hnarrow p.toSoc
  · exact (h.proper (not_le.mp hnarrow)).rateAt_toSoc

theorem rateAt_nonneg (h : p.Sound) (hfrom : p.fromSoc ≤ x) (hto : x ≤ p.toSoc) :
    0 ≤ p.rateAt x := by
  by_cases hnarrow : p.toSoc - p.fromSoc ≤ negligible
  · rw [rateAt_of_narrow hnarrow]
    exact h.toRate
  · exact (h.proper (not_le.mp hnarrow)).rateAt_nonneg hfrom hto

/-- A piece that is too narrow to count ends with a rate, unless it is dead. -/
theorem toRate_pos (h : p.Sound) (hlive : ¬p.Dead)
    (hnarrow : p.toSoc - p.fromSoc ≤ negligible) : 0 < p.toRate :=
  h.toRate.lt_of_ne' fun hzero => hlive ⟨hnarrow, hzero⟩

/-- Unless a piece is dead, the rate is nothing at one state of charge in it at most. -/
theorem rateAt_add_pos (h : p.Sound) (hlive : ¬p.Dead) (hfrom : p.fromSoc ≤ x) (hlt : x < y)
    (hto : y ≤ p.toSoc) : 0 < p.rateAt x + p.rateAt y := by
  by_cases hnarrow : p.toSoc - p.fromSoc ≤ negligible
  · have hrate := h.toRate_pos hlive hnarrow
    rw [rateAt_of_narrow hnarrow, rateAt_of_narrow hnarrow]
    exact add_pos hrate hrate
  · exact (h.proper (not_le.mp hnarrow)).rateAt_add_pos hfrom hlt hto

end Sound

end Piece

/-! ## Curves -/

/-- What the check of a curve makes sure of. -/
structure Curve.Sound (curve : Curve Rat) : Prop where
  empty : curve.empty.soc = 0
  full : curve.full.soc = 1
  ordered : ∀ ends ∈ curve.segments, ends.1.soc ≤ ends.2.soc
  rates : ∀ point ∈ curve.points, 0 ≤ point.rate
  /-- A segment on which a battery could not be charged has no width. -/
  alive : ∀ ends ∈ curve.segments, ends.1.soc < ends.2.soc →
    ¬(ends.1.rate = 0 ∧ ends.2.rate = 0)

theorem Curve.Sound.rates_of_segment {curve : Curve Rat} (h : curve.Sound)
    {a b : CurvePoint Rat} (hsegment : (a, b) ∈ curve.segments) : 0 ≤ a.rate ∧ 0 ≤ b.rate := by
  have hmem : a ∈ curve.points ∧ b ∈ curve.points := by
    simp only [segments, points, List.mem_cons, List.not_mem_nil, or_false, Prod.mk.injEq]
      at hsegment ⊢
    rcases hsegment with ⟨rfl, rfl⟩ | ⟨rfl, rfl⟩ | ⟨rfl, rfl⟩ <;> simp
  exact ⟨h.rates a hmem.1, h.rates b hmem.2⟩

theorem Curve.Sound.le_one {curve : Curve Rat} (h : curve.Sound) {a b : CurvePoint Rat}
    (hsegment : (a, b) ∈ curve.segments) : b.soc ≤ 1 := by
  have hplateau := h.ordered (curve.plateau, curve.taper) (by simp [segments])
  have htaper := h.ordered (curve.taper, curve.full) (by simp [segments])
  simp only [segments, List.mem_cons, List.not_mem_nil, or_false, Prod.mk.injEq] at hsegment
  rw [← h.full]
  rcases hsegment with ⟨-, rfl⟩ | ⟨-, rfl⟩ | ⟨-, rfl⟩
  · exact hplateau.trans htaper
  · exact htaper
  · exact le_refl _

/-- A curve in which no fault is found is sound. -/
theorem Curve.sound_of_fault? {curve : Curve Rat} (h : curve.fault? = none) : curve.Sound := by
  unfold fault? at h
  split_ifs at h with hfinite hspan horder hrates hdead hsegment
  simp only [Bool.or_eq_true, bne_iff_ne, not_or, ne_eq, not_not] at hspan
  simp only [List.any_eq_true, decide_eq_true_eq, not_exists, not_and, not_lt, Bool.and_eq_true,
    beq_iff_eq] at horder hrates hsegment
  refine ⟨hspan.1, hspan.2, fun ends hends => horder ends hends, hrates, ?_⟩
  intro ends hends hlasts hdead
  exact absurd hlasts (not_lt.mpr (hsegment ends hends hdead))

/-- A curve in which no fault is found is accepted. -/
theorem Curve.make_of_fault? {curve : Curve Rat} (h : curve.fault? = none) :
    Curve.make curve.name curve.empty curve.plateau curve.taper curve.full = .ok curve := by
  unfold make
  dsimp only
  rw [h]

/-- A curve that is accepted is sound. -/
theorem Curve.make_sound {name : String} {empty plateau taper full : CurvePoint Rat}
    {curve : Curve Rat} (h : Curve.make name empty plateau taper full = .ok curve) :
    curve.Sound := by
  unfold make at h
  dsimp only at h
  split at h
  · cases h
  next hfault =>
    obtain rfl := Except.ok.inj h
    exact sound_of_fault? hfault

namespace LimitedCurve

/-- Proper pieces that follow on each other from a state of charge to full, with no gap wider than
`gap`. -/
inductive Tiles (gap : Rat) : Rat → List (Piece Rat) → Prop where
  /-- What is left without a piece is a gap. -/
  | nil {a : Rat} (full : a ≤ 1) (close : 1 ≤ a + gap) : Tiles gap a []
  /-- A piece follows. -/
  | cons {a : Rat} {p : Piece Rat} {rest : List (Piece Rat)} (proper : p.Proper)
    (after : a ≤ p.fromSoc) (close : p.fromSoc ≤ a + gap) (more : Tiles gap p.toSoc rest) :
    Tiles gap a (p :: rest)

namespace Tiles

variable {gap wider a b : Rat} {pieces : List (Piece Rat)}

theorem le_one (h : Tiles gap a pieces) : a ≤ 1 := by
  induction h with
  | nil full close => exact full
  | cons proper after close more ih =>
    have hlasts := proper.lasts
    linarith

theorem mem (h : Tiles gap a pieces) :
    ∀ p ∈ pieces, p.Proper ∧ a ≤ p.fromSoc ∧ p.toSoc ≤ 1 := by
  induction h with
  | nil => simp
  | @cons a p rest proper after close more ih =>
    have hlasts := proper.lasts
    intro q hq
    rcases List.mem_cons.mp hq with rfl | hrest
    · exact ⟨proper, after, more.le_one⟩
    · obtain ⟨hproper, hafter, hfull⟩ := ih q hrest
      exact ⟨hproper, by linarith, hfull⟩

theorem mono (h : Tiles gap a pieces) (hgap : gap ≤ wider) : Tiles wider a pieces := by
  induction h with
  | nil full close => exact .nil full (by linarith)
  | cons proper after close more ih => exact .cons proper after (by linarith) ih

/-- The first gap may begin earlier. -/
theorem widen (h : Tiles gap b pieces) (hafter : a ≤ b) (hclose : b + gap ≤ a + wider) :
    Tiles wider a pieces := by
  have hgap : gap ≤ wider := by linarith
  cases h with
  | nil full close => exact .nil (by linarith) (by linarith)
  | cons proper after close more =>
    exact .cons proper (by linarith) (by linarith) (more.mono hgap)

end Tiles

/-- Where the rate along a segment is the limit. -/
def crossing (limit : Rat) (a b : CurvePoint Rat) : Rat :=
  a.soc + (limit - a.rate) * (b.soc - a.soc) / (b.rate - a.rate)

/-- A segment is above the limit at one end and below it at the other if it crosses the limit. -/
theorem crosses_iff {limit : Rat} {a b : CurvePoint Rat} :
    (a.rate - limit) * (b.rate - limit) < 0 ↔
      a.rate < limit ∧ limit < b.rate ∨ limit < a.rate ∧ b.rate < limit := by
  rw [mul_neg_iff]
  simp only [sub_pos, sub_neg]
  tauto

/-- The rate changes along a segment that crosses the limit. -/
theorem change_ne_zero_of_crosses {limit : Rat} {a b : CurvePoint Rat}
    (hcross : (a.rate - limit) * (b.rate - limit) < 0) : b.rate - a.rate ≠ 0 := by
  rcases crosses_iff.mp hcross with ⟨hrises, habove⟩ | ⟨hfalls, hbelow⟩
  · exact (sub_pos.mpr (hrises.trans habove)).ne'
  · exact (sub_neg.mpr (hbelow.trans hfalls)).ne

/-- A segment that crosses the limit does so between its ends. -/
theorem crossing_between {limit : Rat} {a b : CurvePoint Rat} (hlasts : a.soc < b.soc)
    (hcross : (a.rate - limit) * (b.rate - limit) < 0) :
    a.soc < crossing limit a b ∧ crossing limit a b < b.soc := by
  have hwidth := sub_pos.mpr hlasts
  have hshare : 0 < (limit - a.rate) / (b.rate - a.rate) ∧
      (limit - a.rate) / (b.rate - a.rate) < 1 := by
    rcases crosses_iff.mp hcross with ⟨hrises, habove⟩ | ⟨hfalls, hbelow⟩
    · have hchange : 0 < b.rate - a.rate := by linarith
      exact ⟨div_pos (by linarith) hchange, (div_lt_one hchange).mpr (by linarith)⟩
    · have hchange : b.rate - a.rate < 0 := by linarith
      exact ⟨div_pos_of_neg_of_neg (by linarith) hchange,
        (div_lt_one_of_neg hchange).mpr (by linarith)⟩
  have hcut : crossing limit a b =
      a.soc + (limit - a.rate) / (b.rate - a.rate) * (b.soc - a.soc) := by
    rw [crossing, div_mul_eq_mul_div]
  rw [hcut]
  exact ⟨lt_add_of_pos_right _ (mul_pos hshare.1 hwidth), by nlinarith⟩

/-- The pieces of a segment charge a battery. -/
theorem piecesOf_sound {curve : Curve Rat} {limit : Rat} {a b : CurvePoint Rat} (h : curve.Sound)
    (hsegment : (a, b) ∈ curve.segments) (hlimit : 0 < limit) :
    ∀ p ∈ piecesOf limit a b, p.Sound := by
  have halive := h.alive (a, b) hsegment
  obtain ⟨ha, hb⟩ := h.rates_of_segment hsegment
  have hmin (rate : Rat) (hrate : 0 ≤ rate) : 0 ≤ Scalar.lesser rate limit := by
    rw [Trajectory.lesser_eq_min]
    exact le_min hrate hlimit.le
  have hpos (rate : Rat) (hrate : 0 < rate) : 0 < Scalar.lesser rate limit := by
    rw [Trajectory.lesser_eq_min]
    exact lt_min hrate hlimit
  unfold piecesOf
  split_ifs with hnarrow hcross
  · simp
  all_goals
    have hlasts : a.soc < b.soc := Piece.lt_of_wide (not_le.mp hnarrow)
  · have hbetween := crossing_between hlasts hcross
    refine List.forall_mem_cons.mpr ⟨?_, List.forall_mem_singleton.mpr ?_⟩
    · exact ⟨hbetween.1, hmin a.rate ha, hlimit.le,
        add_pos_of_nonneg_of_pos (hmin a.rate ha) hlimit⟩
    · exact ⟨hbetween.2, hlimit.le, hmin b.rate hb,
        add_pos_of_pos_of_nonneg hlimit (hmin b.rate hb)⟩
  · have hlive : 0 < Scalar.lesser a.rate limit + Scalar.lesser b.rate limit := by
      by_cases hzero : a.rate = 0
      · have hne : b.rate ≠ 0 := fun hnone => halive hlasts ⟨hzero, hnone⟩
        exact add_pos_of_nonneg_of_pos (hmin a.rate ha) (hpos b.rate (hb.lt_of_ne' hne))
      · exact add_pos_of_pos_of_nonneg (hpos a.rate (ha.lt_of_ne' hzero)) (hmin b.rate hb)
    exact List.forall_mem_singleton.mpr ⟨hlasts, hmin a.rate ha, hmin b.rate hb, hlive⟩

/-- The pieces of a curve that has passed its check charge a battery. -/
theorem make_sound {curve : Curve Rat} {capacity ratedKw : Rat} (h : curve.Sound)
    (hcapacity : 0 < capacity) (hpower : 0 < ratedKw) :
    ∀ p ∈ (make curve capacity ratedKw).pieces, p.Sound := by
  intro p hp
  obtain ⟨⟨a, b⟩, hsegment, hmem⟩ := List.mem_flatMap.mp hp
  exact piecesOf_sound h hsegment (div_pos hpower hcapacity) p hmem

theorem piecesOf_toSoc_le {limit : Rat} {a b : CurvePoint Rat} :
    ∀ p ∈ piecesOf limit a b, p.toSoc ≤ b.soc := by
  unfold piecesOf
  split_ifs with hnarrow hcross
  · simp
  · have hcut := (crossing_between (Piece.lt_of_wide (not_le.mp hnarrow)) hcross).2.le
    exact List.forall_mem_cons.mpr ⟨hcut, List.forall_mem_singleton.mpr (le_refl _)⟩
  · exact List.forall_mem_singleton.mpr (le_refl _)

/-- No piece of a curve that has passed its check ends beyond full. -/
theorem make_toSoc_le {curve : Curve Rat} (h : curve.Sound) (capacity ratedKw : Rat) :
    ∀ p ∈ (make curve capacity ratedKw).pieces, p.toSoc ≤ 1 := by
  intro p hp
  obtain ⟨⟨a, b⟩, hsegment, hmem⟩ := List.mem_flatMap.mp hp
  exact (piecesOf_toSoc_le p hmem).trans (h.le_one hsegment)

/-- The pieces of a segment lead to where it ends. -/
theorem piecesOf_tiles {curve : Curve Rat} {limit gap : Rat} {a b : CurvePoint Rat}
    {rest : List (Piece Rat)} (h : curve.Sound) (hsegment : (a, b) ∈ curve.segments)
    (hlimit : 0 < limit) (hgap : 0 ≤ gap)
    (hwide : ∀ p ∈ piecesOf limit a b, Piece.negligible < p.toSoc - p.fromSoc)
    (hrest : Tiles gap b.soc rest) :
    Tiles (gap + Piece.negligible) a.soc (piecesOf limit a b ++ rest) := by
  have hordered := h.ordered (a, b) hsegment
  have hnegligible := Piece.negligible_pos
  have hwider : gap ≤ gap + Piece.negligible := by linarith
  have hclose (soc : Rat) : soc ≤ soc + (gap + Piece.negligible) :=
    le_add_of_nonneg_right (hgap.trans hwider)
  have hproper : ∀ p ∈ piecesOf limit a b, p.Proper := fun p hp =>
    (piecesOf_sound h hsegment hlimit p hp).proper (hwide p hp)
  unfold piecesOf at hproper ⊢
  split_ifs at hproper ⊢ with hnarrow hcross
  · exact hrest.widen hordered (by linarith)
  · obtain ⟨hfirst, hsecond⟩ := List.forall_mem_cons.mp hproper
    exact .cons hfirst (le_refl _) (hclose _) (.cons (List.forall_mem_singleton.mp hsecond)
      (le_refl _) (hclose _) (hrest.mono hwider))
  · exact .cons (List.forall_mem_singleton.mp hproper) (le_refl _) (hclose _) (hrest.mono hwider)

/-- The pieces of a curve that has passed its check lead from empty to full. -/
theorem make_tiles {curve : Curve Rat} {capacity ratedKw : Rat} (h : curve.Sound)
    (hcapacity : 0 < capacity) (hpower : 0 < ratedKw)
    (hwide : ∀ p ∈ (make curve capacity ratedKw).pieces,
      Piece.negligible < p.toSoc - p.fromSoc) :
    Tiles (3 * Piece.negligible) 0 (make curve capacity ratedKw).pieces := by
  have hlimit : 0 < ratedKw / capacity := div_pos hpower hcapacity
  have hpieces : (make curve capacity ratedKw).pieces =
      piecesOf (ratedKw / capacity) curve.empty curve.plateau ++
        (piecesOf (ratedKw / capacity) curve.plateau curve.taper ++
          (piecesOf (ratedKw / capacity) curve.taper curve.full ++ [])) := rfl
  rw [hpieces] at hwide ⊢
  have hnegligible := Piece.negligible_pos
  have hramp : (curve.empty, curve.plateau) ∈ curve.segments := by simp [Curve.segments]
  have hplateau : (curve.plateau, curve.taper) ∈ curve.segments := by simp [Curve.segments]
  have htaper : (curve.taper, curve.full) ∈ curve.segments := by simp [Curve.segments]
  have hend : Tiles 0 curve.full.soc [] := .nil h.full.le (by rw [h.full, add_zero])
  have hlast := piecesOf_tiles h htaper hlimit (le_refl 0) (fun p hp => hwide p (by simp [hp])) hend
  have hlater := piecesOf_tiles h hplateau hlimit (by linarith)
    (fun p hp => hwide p (by simp [hp])) hlast
  have hall := piecesOf_tiles h hramp hlimit (by linarith) (fun p hp => hwide p (by simp [hp]))
    hlater
  rw [h.empty] at hall
  exact hall.mono (by linarith)

end LimitedCurve

end DemandTransport
