import DemandTransport.Proofs.Energy.Headway

/-!
# Denominators

Limiting a curve and charging along it divide by the capacity, by the difference of the rates at the
ends of a segment, by the widths of pieces, by the sums of two rates and by what the slope leaves of
two hours. The same calculations are given here in a form that fails when a denominator is nothing.
For a curve that has passed its check they come to the same values, unless charging enters a piece
that is too narrow to count and ends without a rate: all along it the rate counts as the one at its
end.
-/

namespace DemandTransport

/-- A quotient, unless the denominator is nothing. -/
def Scalar.quotient? (x y : Rat) : Option Rat :=
  if y = 0 then none else some (x / y)

/-- There is a quotient, unless the denominator is nothing. -/
theorem Scalar.quotient?_eq {x y : Rat} (h : y ≠ 0) : quotient? x y = some (x / y) :=
  if_neg h

/-- The time along a way on which the rate changes evenly, unless it is nothing at both ends. -/
def trapezoidSecs? (share rateA rateB : Rat) : Option Rat :=
  if share ≤ 0 then some 0 else Scalar.quotient? (2.0 * 3600.0 * share) (rateA + rateB)

/-- There is a time, unless the rates add up to nothing. -/
theorem trapezoidSecs?_eq {share rateA rateB : Rat} (h : rateA + rateB ≠ 0) :
    trapezoidSecs? share rateA rateB = some (trapezoidSecs share rateA rateB) := by
  unfold trapezoidSecs? trapezoidSecs
  split
  · rfl
  · exact Scalar.quotient?_eq h

/-- Along a way of some length there is none if they do. -/
theorem trapezoidSecs?_eq_none {share rateA rateB : Rat} (hshare : 0 < share)
    (h : rateA + rateB = 0) : trapezoidSecs? share rateA rateB = none := by
  rw [trapezoidSecs?, if_neg (not_le.mpr hshare)]
  exact if_pos h

namespace Piece

variable {p : Piece Rat}

/-! ## Pieces -/

/-- The rate at a state of charge, unless the piece has no width to divide by. -/
def rateAt? (p : Piece Rat) (s : Rat) : Option Rat :=
  if p.toSoc - p.fromSoc ≤ negligible then some p.toRate
  else do
    let change ← Scalar.quotient? ((p.toRate - p.fromRate) * (s - p.fromSoc)) (p.toSoc - p.fromSoc)
    return p.fromRate + change

/-- Change of rate per change of charge, unless the piece has no width to divide by. -/
def slope? (p : Piece Rat) : Option Rat :=
  Scalar.quotient? (p.toRate - p.fromRate) (p.toSoc - p.fromSoc)

/-- The rate can be found in every piece: what is too narrow to count is not divided by. -/
theorem rateAt?_eq (p : Piece Rat) (s : Rat) : p.rateAt? s = some (p.rateAt s) := by
  unfold rateAt? rateAt
  split
  · rfl
  next hwide =>
    have hwidth : p.toSoc - p.fromSoc ≠ 0 := fun hnone => hwide (hnone ▸ negligible_pos.le)
    rw [Scalar.quotient?_eq hwidth]
    rfl

/-- A sound piece has a width to divide by. -/
theorem Sound.slope?_eq (h : p.Sound) : p.slope? = some p.slope :=
  Scalar.quotient?_eq (sub_pos.mpr h.lasts).ne'

end Piece

namespace LimitedCurve

variable {curve : Curve Rat} {capacity ratedKw lower upper s left : Rat} {p : Piece Rat}
  {pieces rest : List (Piece Rat)}

/-! ## Limiting a curve -/

/-- The pieces of one segment, unless it crosses the limit without a change of rate to divide by. -/
def piecesOf? (limit : Rat) (a b : CurvePoint Rat) : Option (List (Piece Rat)) :=
  if b.soc - a.soc ≤ Piece.negligible then some []
  else if (a.rate - limit) * (b.rate - limit) < 0 then do
    let ahead ← Scalar.quotient? ((limit - a.rate) * (b.soc - a.soc)) (b.rate - a.rate)
    let cut := a.soc + ahead
    return [⟨a.soc, Scalar.lesser a.rate limit, cut, limit⟩,
      ⟨cut, limit, b.soc, Scalar.lesser b.rate limit⟩]
  else some [⟨a.soc, Scalar.lesser a.rate limit, b.soc, Scalar.lesser b.rate limit⟩]

/-- A curve at a charger, unless there is a division by nothing. -/
def make? (curve : Curve Rat) (capacity ratedKw : Rat) : Option (LimitedCurve Rat) := do
  let limit ← Scalar.quotient? ratedKw capacity
  let pieces ← curve.segments.mapM fun (a, b) => piecesOf? limit a b
  return ⟨pieces.flatten, capacity⟩

/-- A segment that crosses the limit has a change of rate to divide by. -/
theorem piecesOf?_eq (limit : Rat) (a b : CurvePoint Rat) :
    piecesOf? limit a b = some (piecesOf limit a b) := by
  unfold piecesOf? piecesOf
  split_ifs with hnarrow hcross
  · rfl
  · rw [Scalar.quotient?_eq (change_ne_zero_of_crosses hcross)]
    rfl
  · rfl

/-- Limiting a curve never divides by nothing, if the battery has a capacity. -/
theorem make?_eq (curve : Curve Rat) (ratedKw : Rat) (hcapacity : 0 < capacity) :
    make? curve capacity ratedKw = some (make curve capacity ratedKw) := by
  unfold make?
  simp only [Scalar.quotient?_eq hcapacity.ne', piecesOf?_eq]
  rfl

/-- The rate at a state of charge, unless there is a division by nothing. -/
def rateAt? (limited : LimitedCurve Rat) (soc : Rat) : Option Rat :=
  let s := Scalar.clamp soc 0 1
  match (limited.pieces.find? fun p => s ≤ p.toSoc).or limited.pieces.getLast? with
  | some p => p.rateAt? s
  | none => some 0

/-- Nor does finding the rate at a state of charge. -/
theorem rateAt?_eq (limited : LimitedCurve Rat) (soc : Rat) :
    limited.rateAt? soc = some (limited.rateAt soc) := by
  unfold rateAt? rateAt
  dsimp only
  generalize (limited.pieces.find? fun p => Scalar.clamp soc 0 1 ≤ p.toSoc).or
    limited.pieces.getLast? = found
  cases found with
  | none => rfl
  | some p => exact p.rateAt?_eq _

/-! ## Adding up -/

/-- Seconds to charge from one state of charge to another along some pieces, unless there is a
division by nothing. -/
def secsAlong? (lower upper : Rat) : List (Piece Rat) → Option Rat
  | [] => some 0
  | p :: rest =>
    if p.toSoc ≤ lower ∨ upper ≤ p.fromSoc then secsAlong? lower upper rest
    else do
      let a := Scalar.greater lower p.fromSoc
      let b := Scalar.lesser upper p.toSoc
      let secs ← trapezoidSecs? (b - a) (← p.rateAt? a) (← p.rateAt? b)
      return secs + (← secsAlong? lower upper rest)

/-- Seconds to charge from one state of charge to another, unless there is a division by nothing. -/
def timeBetween? (limited : LimitedCurve Rat) (lower upper : Rat) : Option Rat :=
  let lower := Scalar.clamp lower 0 1
  let upper := Scalar.clamp upper 0 1
  if upper ≤ lower then some 0 else secsAlong? lower upper limited.pieces

theorem secsAlong?_untouched (h : p.toSoc ≤ lower ∨ upper ≤ p.fromSoc) :
    secsAlong? lower upper (p :: rest) = secsAlong? lower upper rest :=
  if_pos h

theorem secsAlong?_touched (h : ¬(p.toSoc ≤ lower ∨ upper ≤ p.fromSoc)) :
    secsAlong? lower upper (p :: rest) =
      (trapezoidSecs? (min upper p.toSoc - max lower p.fromSoc) (p.rateAt (max lower p.fromSoc))
        (p.rateAt (min upper p.toSoc))).bind fun secs =>
          (secsAlong? lower upper rest).map (secs + ·) := by
  rw [secsAlong?, if_neg h]
  simp only [Piece.rateAt?_eq, Scalar.greater_eq_max, Trajectory.lesser_eq_min,
    Option.bind_eq_bind, Option.bind_some, Option.pure_def, Option.map_eq_bind]
  rfl

/-- Adding up comes to the time that charging takes exactly if no piece that it touches is dead. -/
theorem secsAlong?_eq_iff (hsound : ∀ p ∈ pieces, p.Sound) (hlt : lower < upper) :
    secsAlong? lower upper pieces = some (secsAlong lower upper pieces) ↔
      ∀ p ∈ pieces, p.Dead → p.toSoc ≤ lower ∨ upper ≤ p.fromSoc := by
  induction pieces with
  | nil => simp [secsAlong?, secsAlong]
  | cons p rest ih =>
    obtain ⟨hp, hrest⟩ := List.forall_mem_cons.mp hsound
    rw [List.forall_mem_cons, ← ih hrest]
    by_cases huntouched : p.toSoc ≤ lower ∨ upper ≤ p.fromSoc
    · have hsame : secsAlong lower upper (p :: rest) = secsAlong lower upper rest :=
        huntouched.elim secsAlong_before secsAlong_behind
      rw [secsAlong?_untouched huntouched, hsame]
      exact (and_iff_right fun _ => huntouched).symm
    · rw [secsAlong?_touched huntouched]
      obtain ⟨hlower, hupper⟩ := not_or.mp huntouched
      rw [not_le] at hlower hupper
      have hway : max lower p.fromSoc < min upper p.toSoc :=
        max_lt (lt_min hlt hlower) (lt_min hupper hp.lasts)
      by_cases hdead : p.Dead
      · rw [Piece.rateAt_of_narrow hdead.1, Piece.rateAt_of_narrow hdead.1, hdead.2,
          trapezoidSecs?_eq_none (sub_pos.mpr hway) (add_zero 0)]
        exact ⟨fun hnone => (Option.some_ne_none _ hnone.symm).elim,
          fun hall => absurd (hall.1 hdead) huntouched⟩
      · have hsum := hp.rateAt_add_pos hdead (le_max_right lower _) hway (min_le_right upper _)
        rw [trapezoidSecs?_eq hsum.ne', secsAlong_within hlower hupper, Option.bind_some,
          Option.map_eq_some_iff]
        constructor
        · rintro ⟨secs, hsecs, hadd⟩
          obtain rfl := add_left_cancel hadd
          exact ⟨fun h => absurd h hdead, hsecs⟩
        · rintro ⟨-, hsecs⟩
          exact ⟨_, hsecs, rfl⟩

/-- Between two states of charge, seconds are added up along the pieces. -/
theorem timeBetween?_eq {limited : LimitedCurve Rat} (hlower : 0 ≤ lower) (hlt : lower < upper)
    (hupper : upper ≤ 1) :
    limited.timeBetween? lower upper = secsAlong? lower upper limited.pieces := by
  unfold timeBetween?
  rw [Scalar.clamp_of_mem hlower (hlt.le.trans hupper),
    Scalar.clamp_of_mem (hlower.trans hlt.le) hupper]
  exact if_neg (not_le.mpr hlt)

/-! ## Getting along -/

/-- The state of charge reached by charging along some pieces, unless there is a division by
nothing. -/
def advanceAlong? : List (Piece Rat) → Rat → Rat → Option Rat
  | [], s, _ => some s
  | p :: rest, s, left =>
    if p.toSoc ≤ s then advanceAlong? rest s left
    else if left ≤ 0 then some s
    else do
      let a := Scalar.greater s p.fromSoc
      let rate ← p.rateAt? a
      let whole ← trapezoidSecs? (p.toSoc - a) rate p.toRate
      if whole ≤ left + slack then advanceAlong? rest p.toSoc (left - whole)
      else
        let gain ← Scalar.quotient? (2.0 * rate * left) (2.0 * 3600.0 - left * (← p.slope?))
        advanceAlong? rest (Scalar.lesser (a + gain) p.toSoc) 0

/-- The state of charge after some seconds of charging, unless there is a division by nothing. -/
def advance? (limited : LimitedCurve Rat) (soc secs : Rat) : Option Rat := do
  let reached ← advanceAlong? limited.pieces (Scalar.clamp soc 0 1) (Scalar.greater secs 0)
  return Scalar.lesser reached 1

/-- When no time is left nothing is divided. -/
theorem advanceAlong?_done (hleft : left ≤ 0) : advanceAlong? pieces s left = some s := by
  induction pieces with
  | nil => rfl
  | cons p rest ih =>
    by_cases hbefore : p.toSoc ≤ s
    · rw [advanceAlong?, if_pos hbefore, ih]
    · rw [advanceAlong?, if_neg hbefore, if_pos hleft]

/-- Charging gets along if it stops before every dead piece ahead. -/
theorem advanceAlong?_eq (hsound : ∀ p ∈ pieces, p.Sound)
    (hclear : ∀ p ∈ pieces, p.Dead → p.toSoc ≤ s ∨ advanceAlong pieces s left ≤ p.fromSoc) :
    advanceAlong? pieces s left = some (advanceAlong pieces s left) := by
  induction pieces generalizing s left with
  | nil => rfl
  | cons p rest ih =>
    obtain ⟨hp, hrest⟩ := List.forall_mem_cons.mp hsound
    obtain ⟨hdead, hlater⟩ := List.forall_mem_cons.mp hclear
    by_cases hpassed : p.toSoc ≤ s
    · rw [advanceAlong_before hpassed] at hlater ⊢
      rw [advanceAlong?, if_pos hpassed]
      exact ih hrest hlater
    by_cases hdone : left ≤ 0
    · rw [advanceAlong?_done hdone, advanceAlong_done hdone]
    rw [not_le] at hpassed hdone
    have hlive : ¬p.Dead := by
      intro h
      have hwhole : p.secsBetween (max s p.fromSoc) p.toSoc ≤ left + slack := by
        rw [h.secsBetween_eq]
        exact (add_pos hdone slack_pos).le
      have hends : p.toSoc ≤ advanceAlong (p :: rest) s left := by
        rw [advanceAlong_pass hp hpassed hdone hwhole]
        exact le_advanceAlong hrest
      rcases hdead h with hbehind | hstops
      · exact absurd hbehind (not_le.mpr hpassed)
      · exact absurd (hends.trans hstops) (not_le.mpr hp.lasts)
    have hbegin : p.fromSoc ≤ max s p.fromSoc := le_max_right _ _
    have hroom : max s p.fromSoc < p.toSoc := max_lt hpassed hp.lasts
    have hsum := hp.rateAt_add_pos hlive hbegin hroom (le_refl _)
    rw [hp.rateAt_toSoc] at hsum
    have hsame : trapezoidSecs (p.toSoc - max s p.fromSoc) (p.rateAt (max s p.fromSoc)) p.toRate =
        p.secsBetween (max s p.fromSoc) p.toSoc := by
      rw [Piece.secsBetween, hp.rateAt_toSoc]
    rw [advanceAlong?, if_neg (not_le.mpr hpassed), if_neg (not_le.mpr hdone)]
    simp only [Piece.rateAt?_eq, hp.slope?_eq, Scalar.greater_eq_max, Trajectory.lesser_eq_min,
      Option.bind_eq_bind, Option.bind_some, trapezoidSecs?_eq hsum.ne', hsame]
    by_cases hwhole : p.secsBetween (max s p.fromSoc) p.toSoc ≤ left + slack
    · rw [advanceAlong_pass hp hpassed hdone hwhole] at hlater ⊢
      rw [if_pos hwhole]
      exact ih hrest fun q hq h => (hlater q hq h).imp_left fun hbehind => hbehind.trans hpassed.le
    · rw [not_le] at hwhole
      have hleaves := hp.left_mul_slope_lt hlive hbegin hroom hdone.le (less_of_slack hwhole)
      have hden : (2.0 * 3600.0 - left * p.slope : Rat) = 7200 - left * p.slope := by norm_num
      rw [if_neg (not_le.mpr hwhole), hden, Scalar.quotient?_eq hleaves.ne', Option.bind_some,
        advanceAlong?_done (le_refl 0), advanceAlong_within hp hpassed hdone hwhole]
      norm_num

/-! ## Both together -/

/-- No denominator is nothing when a curve that has passed its check is limited, and when its rate
is found. For the time between two states of charge this holds exactly if no dead piece lies between
them, and for charging for a time if it stops before every dead piece ahead. -/
theorem denominators_nonzero {name : String} {empty plateau taper full : CurvePoint Rat}
    {curve : Curve Rat} {capacity ratedKw : Rat}
    (hcurve : Curve.make name empty plateau taper full = .ok curve) (hcapacity : 0 < capacity)
    (hpower : 0 < ratedKw) :
    let limited := make curve capacity ratedKw
    make? curve capacity ratedKw = some limited ∧
      (∀ s, limited.rateAt? s = some (limited.rateAt s)) ∧
      (∀ s t, 0 ≤ s → s ≤ 1 → 0 ≤ t → t ≤ 1 →
        (limited.timeBetween? s t = some (limited.timeBetween s t) ↔
          ∀ p ∈ limited.pieces, p.Dead → t ≤ s ∨ p.toSoc ≤ s ∨ t ≤ p.fromSoc)) ∧
      ∀ s secs, 0 ≤ s → s ≤ 1 → 0 ≤ secs →
        (∀ p ∈ limited.pieces, p.Dead → p.toSoc ≤ s ∨ limited.advance s secs ≤ p.fromSoc) →
        limited.advance? s secs = some (limited.advance s secs) := by
  intro limited
  have hcurve := Curve.make_sound hcurve
  have hsound := make_sound hcurve hcapacity hpower
  refine ⟨make?_eq curve ratedKw hcapacity, limited.rateAt?_eq, ?_, ?_⟩
  · intro s t hs hs' ht ht'
    rcases le_or_gt t s with hthere | hlt
    · have hclamped : Scalar.clamp t 0 1 ≤ Scalar.clamp s 0 1 := by
        rwa [Scalar.clamp_of_mem hs hs', Scalar.clamp_of_mem ht ht']
      have hnone : limited.timeBetween? s t = some 0 := if_pos hclamped
      rw [hnone, timeBetween_of_le hclamped]
      exact iff_of_true rfl fun _ _ _ => .inl hthere
    · rw [timeBetween?_eq hs hlt ht', timeBetween_eq hs hlt ht', secsAlong?_eq_iff hsound hlt]
      simp only [not_le.mpr hlt, false_or, limited]
  · intro s secs hs hs' hsecs hclear
    have hadvance : limited.advance s secs = min (advanceAlong limited.pieces s secs) 1 :=
      advance_eq hs hs' hsecs
    unfold advance?
    rw [Scalar.clamp_of_mem hs hs', Scalar.greater_eq_max, max_eq_left hsecs,
      advanceAlong?_eq hsound fun p hp hdead => ?_, hadvance, ← Trajectory.lesser_eq_min]
    · rfl
    · refine (hclear p hp hdead).imp_right fun hstops => ?_
      rw [hadvance] at hstops
      have hbefore : p.fromSoc < 1 := (hsound p hp).lasts.trans_le (make_toSoc_le hcurve _ _ p hp)
      exact (min_le_iff.mp hstops).resolve_right (not_le.mpr hbefore)

/-- Along a curve that falls to nothing at an inner point, a charger of 30 kW charges a battery of
60 kWh from empty to full. -/
theorem denominators_nonzero_stop :
    let curve : Curve Rat := ⟨"stop", ⟨0, 1⟩, ⟨0.5, 2⟩, ⟨0.75, 0⟩, ⟨1, 1⟩⟩
    let limited := make curve 60 30
    make? curve 60 30 = some limited ∧ limited.rateAt? 0.75 = some (limited.rateAt 0.75) ∧
      limited.timeBetween? 0 1 = some (limited.timeBetween 0 1) ∧
      limited.advance? 0.7 20000 = some (limited.advance 0.7 20000) := by
  intro curve limited
  have hchecked : curve.fault? = none := Option.isNone_iff_eq_none.mp (by decide +kernel)
  obtain ⟨hmake, hrate, htime, hadvance⟩ := @denominators_nonzero _ _ _ _ _ curve 60 30
    (Curve.make_of_fault? hchecked) (by decide +kernel) (by decide +kernel)
  exact ⟨hmake, hrate 0.75,
    (htime 0 1 (by decide +kernel) (by decide +kernel) (by decide +kernel) (by decide +kernel)).mpr
      (by decide +kernel),
    hadvance 0.7 20000 (by decide +kernel) (by decide +kernel) (by decide +kernel)
      (by decide +kernel)⟩

/-- A segment that falls to nothing within 2 ^ -39 is cut by the limit into two pieces, of which the
second one is too narrow to count. The curve has passed its check, and charging divides by
nothing. -/
theorem denominators_zero_narrow :
    let curve : Curve Rat := ⟨"narrow", ⟨0, 1⟩, ⟨1 / 2, 1⟩, ⟨1 / 2 + 1 / 2 ^ 39, 0⟩, ⟨1, 1⟩⟩
    let limited := make curve 60 30
    curve.fault? = none ∧ limited.timeBetween? 0 1 = none ∧ limited.advance? 0 20000 = none := by
  decide +kernel

end LimitedCurve

end DemandTransport
