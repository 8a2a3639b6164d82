import Mathlib.Analysis.SpecialFunctions.Log.Basic
import Mathlib.Data.Nat.Nth
import DemandTransport.Proofs.Demand.Drawing
import DemandTransport.Simulation.Settings

/-!
# When demand comes to an end

Requests are drawn until the gaps between them have added up to the end of demand, and nothing else
bounds their number. A gap is the mean times a number that is not negative. A positive mean
therefore reaches every end, unless the gaps are lost when they are added to the time and the sum is
rounded. With any other mean no request is submitted later than the first one, and if that one lies
before the end, there is no end to the requests.
-/

namespace DemandTransport

/-! ## The loop -/

namespace DrawSource

variable {R G : Type} [Scalar R] {source : DrawSource R G} {config : DemandConfig R}
  {nodes number : Nat} {t : R} {g : G}

/-- The drawing of demand comes to an end, however many requests that takes. -/
def Ends (source : DrawSource R G) (config : DemandConfig R) (nodes : Nat) (g : G) : Prop :=
  ∃ requests g',
    source.Draws config nodes (Scalar.ofNat config.start.secs) 0 g requests g'

/-- When the request behind so many others is submitted. -/
def submission (source : DrawSource R G) (config : DemandConfig R) (nodes : Nat) (g : G)
    (behind : Nat) : Time :=
  .ofSecs (Scalar.floor
    (source.timeAt config nodes (Scalar.ofNat config.start.secs) g behind))

/-- Each gap is added to the time of the request before it. -/
theorem timeAt_succ (n : Nat) :
    source.timeAt config nodes t g (n + 1) = source.timeAt config nodes t g n +
      source.gap config ((source.afterRequest config nodes)^[n + 1] g) := by
  induction n generalizing t g with
  | zero => rfl
  | succ n ih => exact ih

/-- The first request that comes too late ends the draws, and nothing else does. -/
theorem exists_draws_iff :
    (∃ requests g', source.Draws config nodes t number g requests g') ↔
      ∃ n, config.finish ≤ .ofSecs (Scalar.floor (source.timeAt config nodes t g n)) := by
  constructor
  · rintro ⟨requests, g', h⟩
    induction h with
    | late hlate => exact ⟨0, hlate⟩
    | another _ _ ih =>
      obtain ⟨n, hlate⟩ := ih
      exact ⟨n + 1, hlate⟩
  · rintro ⟨n, hlate⟩
    induction n generalizing t number g with
    | zero => exact ⟨_, _, .late hlate⟩
    | succ n ih =>
      by_cases hover : config.finish ≤ .ofSecs (Scalar.floor (t + source.gap config g))
      · exact ⟨_, _, .late hover⟩
      · have hothers : ∃ rest g', source.Draws config nodes (t + source.gap config g) (number + 1)
            (source.afterRequest config nodes g) rest g' := ih hlate
        obtain ⟨rest, g', hrest⟩ := hothers
        exact ⟨_, _, .another hover hrest⟩

/-- Demand ends exactly if some submission is at the end or later. -/
theorem ends_iff : source.Ends config nodes g ↔
    ∃ n, config.finish ≤ source.submission config nodes g n :=
  exists_draws_iff

/-- Nothing is generated without an end. -/
theorem generate_eq_none (hnodes : 2 ≤ nodes) (h : ¬source.Ends config nodes g) :
    source.generate config nodes g = none := by
  refine Option.eq_none_iff_forall_ne_some.mpr fun ⟨requests, g'⟩ hgenerate => ?_
  exact h ⟨requests, g', ((generate_eq_some_iff hnodes).mp hgenerate).1⟩

/-- Demand has no end if something is true of the time at its begin, stays true when a gap is added,
and is true only of times before the end. Sums may be rounded. -/
theorem not_ends_of_keeps {P : R → Prop} (hstart : P (Scalar.ofNat config.start.secs))
    (hkeeps : ∀ t g, P t → P (t + source.gap config g))
    (hahead : ∀ t, P t → ¬config.finish ≤ .ofSecs (Scalar.floor t)) :
    ¬source.Ends config nodes g := by
  have htime (n : Nat) : P (source.timeAt config nodes (Scalar.ofNat config.start.secs) g n) := by
    induction n with
    | zero => exact hkeeps _ _ hstart
    | succ n ih =>
      rw [timeAt_succ]
      exact hkeeps _ _ ih
  rw [ends_iff]
  exact fun ⟨n, hlate⟩ => hahead _ (htime n) hlate

end DrawSource

/-! ## Rounding -/

/-- A way to round numbers: it keeps their order and zero, and it keeps what it has rounded. -/
structure Rounding where
  /-- The number to which a number is rounded. -/
  round : ℝ → ℝ
  mono : Monotone round
  zero : round 0 = 0
  idem : ∀ x, round (round x) = round x

namespace Rounding

instance : CoeFun Rounding fun _ => ℝ → ℝ := ⟨round⟩

/-- No rounding at all. -/
def exact : Rounding := ⟨id, monotone_id, rfl, fun _ => rfl⟩

theorem nonneg (ρ : Rounding) {x : ℝ} (h : 0 ≤ x) : 0 ≤ ρ x := ρ.zero.symm.le.trans (ρ.mono h)

theorem nonpos (ρ : Rounding) {x : ℝ} (h : x ≤ 0) : ρ x ≤ 0 := (ρ.mono h).trans ρ.zero.le

/-- Only even numbers are told apart from twice a bound on. -/
noncomputable def evenFrom (bound : Nat) : Rounding where
  round x := if x < 2 * bound then x else 2 * ⌊x / 2⌋
  mono x y hxy := by
    have hfloor : (⌊x / 2⌋ : ℝ) ≤ ⌊y / 2⌋ := by
      exact_mod_cast Int.floor_mono (div_le_div_of_nonneg_right hxy zero_le_two)
    have hbound (h : 2 * (bound : ℝ) ≤ y) : (bound : ℝ) ≤ ⌊y / 2⌋ := by
      exact_mod_cast Int.le_floor.mpr (show ((bound : Int) : ℝ) ≤ y / 2 by push_cast; linarith)
    dsimp only
    split_ifs with hx hy hy
    · exact hxy
    · linarith [hbound (not_lt.mp hy)]
    · exact absurd (hxy.trans_lt hy) hx
    · linarith
  zero := by split_ifs <;> simp
  idem x := by
    by_cases hx : x < 2 * bound
    · simp only [if_pos hx]
    · simp only [if_neg hx, mul_div_cancel_left₀ (⌊x / 2⌋ : ℝ) two_ne_zero, Int.floor_intCast,
        ite_self]

theorem evenFrom_of_lt {bound : Nat} {x : ℝ} (h : x < 2 * bound) : evenFrom bound x = x := if_pos h

theorem evenFrom_bound (bound : Nat) : evenFrom bound (2 * bound) = 2 * bound := by
  have hfloor : ⌊2 * (bound : ℝ) / 2⌋ = bound := by
    rw [mul_div_cancel_left₀ _ two_ne_zero, Int.floor_natCast]
  change ite _ _ (2 * (⌊2 * (bound : ℝ) / 2⌋ : ℝ)) = _
  rw [hfloor, if_neg (lt_irrefl _), Int.cast_natCast]

theorem evenFrom_le (bound : Nat) (x : ℝ) : evenFrom bound x ≤ x := by
  have hfloor := Int.floor_le (x / 2)
  change ite _ x (2 * (⌊x / 2⌋ : ℝ)) ≤ _
  split_ifs <;> linarith

/-- What is added at the bound is lost unless it reaches the next even number. -/
theorem evenFrom_le_bound {bound : Nat} {x : ℝ} (h : x < 2 * bound + 2) :
    evenFrom bound x ≤ 2 * bound := by
  have hfloor : ⌊x / 2⌋ < (bound : Int) + 1 := Int.floor_lt.mpr (by push_cast; linarith)
  have hle : (⌊x / 2⌋ : ℝ) ≤ bound := by exact_mod_cast Int.lt_add_one_iff.mp hfloor
  change ite _ x (2 * (⌊x / 2⌋ : ℝ)) ≤ _
  split_ifs <;> linarith

end Rounding

/-- A number that is rounded. -/
structure Rounded (ρ : Rounding) where
  /-- The number itself. -/
  val : ℝ
  round_val : ρ val = val

namespace Rounded

variable {ρ : Rounding}

/-- A number once it is rounded. -/
def of (ρ : Rounding) (x : ℝ) : Rounded ρ := ⟨ρ x, ρ.idem x⟩

/-- Every operation is rounded once. -/
noncomputable instance : Scalar (Rounded ρ) where
  zero := of ρ 0
  one := of ρ 1
  add a b := of ρ (a.val + b.val)
  sub a b := of ρ (a.val - b.val)
  mul a b := of ρ (a.val * b.val)
  div a b := of ρ (a.val / b.val)
  neg a := of ρ (-a.val)
  lt a b := a.val < b.val
  le a b := a.val ≤ b.val
  beq a b := decide (a.val = b.val)
  ofScientific digits isNegative exponent :=
    of ρ (OfScientific.ofScientific digits isNegative exponent)
  decLt a b := inferInstanceAs (Decidable (a.val < b.val))
  decLe a b := inferInstanceAs (Decidable (a.val ≤ b.val))
  ofNat n := of ρ n
  isFinite _ := true
  floor x := min ⌊x.val⌋₊ wordLimit
  ceil x := min ⌈x.val⌉₊ wordLimit
  totalLt a b := decide (a.val < b.val)

@[simp] theorem val_add (a b : Rounded ρ) : (a + b).val = ρ (a.val + b.val) := rfl

/-- A summand that is not negative takes no sum back. -/
theorem le_add {a b : Rounded ρ} (h : 0 ≤ b.val) : a.val ≤ (a + b).val := by
  rw [val_add]
  exact a.round_val.symm.le.trans (ρ.mono (le_add_of_nonneg_right h))

/-- A summand that is not positive takes no sum further. -/
theorem add_le {a b : Rounded ρ} (h : b.val ≤ 0) : (a + b).val ≤ a.val := by
  rw [val_add]
  exact (ρ.mono (add_le_of_nonpos_right h)).trans a.round_val.le

theorem floor_mono {a b : Rounded ρ} (h : a.val ≤ b.val) : Scalar.floor a ≤ Scalar.floor b := by
  have hfloor := Nat.floor_mono h
  change min ⌊a.val⌋₊ wordLimit ≤ min ⌊b.val⌋₊ wordLimit
  omega

end Rounded

instance : Scalar.KeepsTime (Rounded .exact) where
  floor_ofNat n hn := by
    change min ⌊(n : ℝ)⌋₊ wordLimit = n
    rw [Nat.floor_natCast, Nat.min_eq_left hn]
  floor_le_floor_add _ _ hgap := Rounded.floor_mono (Rounded.le_add hgap)

namespace Time

variable {ρ : Rounding}

/-- Negative numbers stand for the time zero. -/
theorem le_ofSecs_floor_iff {t : Time} {x : Rounded ρ} :
    t ≤ .ofSecs (Scalar.floor x) ↔ t.secs = 0 ∨ (t.secs : ℝ) ≤ x.val := by
  have hword := t.secs_le
  change t.secs ≤ min (min ⌊x.val⌋₊ wordLimit) wordLimit ↔ _
  rcases Nat.eq_zero_or_pos t.secs with hzero | hpos
  · simp [hzero]
  · rw [← Nat.le_floor_iff' hpos.ne', or_iff_right hpos.ne']
    omega

theorem ofSecs_floor_mono {x y : Rounded ρ} (h : x.val ≤ y.val) :
    Time.ofSecs (Scalar.floor x) ≤ Time.ofSecs (Scalar.floor y) := by
  have hfloor := Rounded.floor_mono h
  simp only [Time.le_iff, Time.ofSecs]
  omega

end Time

/-! ## Gaps by inversion -/

/-- A source of numbers in the unit interval, the lower end included, and of numbers below a
bound. -/
structure UnitSource (G : Type) where
  /-- Draw from the unit interval. -/
  unit : G → ℝ × G
  unit_mem : ∀ g, (unit g).1 ∈ Set.Ico (0 : ℝ) 1
  /-- Draw a number below a bound. -/
  below : G → Nat → Nat × G

namespace UnitSource

variable {G : Type} {source : UnitSource G} {ρ : Rounding} {config : DemandConfig (Rounded ρ)}
  {nodes : Nat} {t : Rounded ρ} {g : G} {u v : ℝ}

/-- The gap that a number of the unit interval makes of the mean. -/
noncomputable def gapOf (mean : Rounded ρ) (u : ℝ) : Rounded ρ :=
  .of ρ (-mean.val * ρ (Real.log (1 - u)))

/-- The source that draws from the exponential distribution by inversion, with rounding. -/
noncomputable def byInversion (source : UnitSource G) (ρ : Rounding) :
    DrawSource (Rounded ρ) G where
  exponential g mean := (gapOf mean (source.unit g).1, (source.unit g).2)
  below := source.below

/-- The source once all numbers for a request between so many nodes have been drawn. -/
def afterRequest (source : UnitSource G) (nodes : Nat) (g : G) : G :=
  (source.below (source.below (source.unit g).2 nodes).2 (nodes - 1)).2

theorem byInversion_afterRequest :
    (source.byInversion ρ).afterRequest config nodes = source.afterRequest nodes := rfl

open Classical in
/-- How many of the draws for the first so many requests are at least so large. -/
noncomputable def drawsFrom (source : UnitSource G) (nodes : Nat) (g : G) (draw : ℝ)
    (requests : Nat) : Nat :=
  Nat.count (fun i => draw ≤ (source.unit ((source.afterRequest nodes)^[i] g)).1) requests

open Classical in
theorem drawsFrom_succ (draw : ℝ) (n : Nat) :
    source.drawsFrom nodes g draw (n + 1) = source.drawsFrom nodes g draw n +
      if draw ≤ (source.unit ((source.afterRequest nodes)^[n] g)).1 then 1 else 0 :=
  Nat.count_succ _ n

/-- The mean is not lost in the sums: there is a draw by which every time before the end of demand
goes on by at least a certain step, for all the rounding, and draws at least as large come often
enough for their steps to reach the end. -/
def Advances (source : UnitSource G) (config : DemandConfig (Rounded ρ)) (nodes : Nat) (g : G) :
    Prop :=
  ∃ draw step, (∀ t : Rounded ρ, t.val < config.finish.secs →
      t.val + step ≤ (t + gapOf config.meanGap draw).val) ∧
    ∃ requests, (config.finish.secs : ℝ) ≤
      ρ config.start.secs + source.drawsFrom nodes g draw requests * step

/-- With a mean that is not negative no gap is. -/
theorem gapOf_nonneg {mean : Rounded ρ} (hmean : 0 ≤ mean.val) (hu : u ∈ Set.Ico (0 : ℝ) 1) :
    0 ≤ (gapOf mean u).val := by
  have hlog : Real.log (1 - u) ≤ 0 := Real.log_nonpos (by linarith [hu.2]) (by linarith [hu.1])
  exact ρ.nonneg (mul_nonneg_of_nonpos_of_nonpos (neg_nonpos.mpr hmean) (ρ.nonpos hlog))

/-- With a mean that is not positive no gap is. -/
theorem gapOf_nonpos {mean : Rounded ρ} (hmean : mean.val ≤ 0) (hu : u ∈ Set.Ico (0 : ℝ) 1) :
    (gapOf mean u).val ≤ 0 := by
  have hlog : Real.log (1 - u) ≤ 0 := Real.log_nonpos (by linarith [hu.2]) (by linarith [hu.1])
  exact ρ.nonpos (mul_nonpos_of_nonneg_of_nonpos (neg_nonneg.mpr hmean) (ρ.nonpos hlog))

/-- Larger draws make longer gaps. -/
theorem gapOf_mono {mean : Rounded ρ} (hmean : 0 ≤ mean.val) (huv : u ≤ v) (hv : v < 1) :
    (gapOf mean u).val ≤ (gapOf mean v).val := by
  have hlog : Real.log (1 - v) ≤ Real.log (1 - u) := Real.log_le_log (by linarith) (by linarith)
  exact ρ.mono (mul_le_mul_of_nonpos_left (ρ.mono hlog) (neg_nonpos.mpr hmean))

/-! ### A mean that is not positive -/

/-- A mean that is not positive makes no request come later than the first one. -/
theorem timeAt_le_of_nonpos (hmean : config.meanGap.val ≤ 0) (n : Nat) :
    ((source.byInversion ρ).timeAt config nodes t g n).val ≤
      (t + (source.byInversion ρ).gap config g).val := by
  induction n with
  | zero => exact le_rfl
  | succ n ih =>
    rw [DrawSource.timeAt_succ]
    exact (Rounded.add_le (gapOf_nonpos hmean (source.unit_mem _))).trans ih

/-- So the first one decides. -/
theorem ends_iff_of_nonpos (hmean : config.meanGap.val ≤ 0) :
    (source.byInversion ρ).Ends config nodes g ↔
      config.finish ≤ (source.byInversion ρ).submission config nodes g 0 := by
  rw [DrawSource.ends_iff]
  refine ⟨fun ⟨n, hlate⟩ => ?_, fun hlate => ⟨0, hlate⟩⟩
  exact Nat.le_trans hlate (Time.ofSecs_floor_mono (timeAt_le_of_nonpos hmean n))

/-! ### A positive mean -/

open Classical in
/-- A draw that is large enough takes the time on by a step, unless the end has been reached, and no
draw takes it back. -/
theorem le_add_gap (hmean : 0 ≤ config.meanGap.val) {draw step : ℝ}
    (hstep : ∀ t : Rounded ρ, t.val < config.finish.secs →
      t.val + step ≤ (t + gapOf config.meanGap draw).val) (t : Rounded ρ) (g : G) :
    config.finish.secs ≤ (t + (source.byInversion ρ).gap config g).val ∨
      t.val + (if draw ≤ (source.unit g).1 then 1 else 0 : Nat) * step ≤
        (t + (source.byInversion ρ).gap config g).val := by
  have hunit := source.unit_mem g
  have hlater : t.val ≤ (t + (source.byInversion ρ).gap config g).val :=
    Rounded.le_add (gapOf_nonneg hmean hunit)
  split
  next hdraw =>
    rw [Nat.cast_one, one_mul]
    rcases le_or_gt (config.finish.secs : ℝ) t.val with hreached | hahead
    · exact .inl (hreached.trans hlater)
    · have hgap : (gapOf config.meanGap draw).val ≤ ((source.byInversion ρ).gap config g).val :=
        gapOf_mono hmean hdraw hunit.2
      exact .inr ((hstep t hahead).trans (ρ.mono (by linarith)))
  next =>
    rw [Nat.cast_zero, zero_mul, add_zero]
    exact .inr hlater

/-- The time goes on by as many steps as there are such draws. -/
theorem le_timeAt (hmean : 0 ≤ config.meanGap.val) {draw step : ℝ}
    (hstep : ∀ t : Rounded ρ, t.val < config.finish.secs →
      t.val + step ≤ (t + gapOf config.meanGap draw).val) (n : Nat) :
    config.finish.secs ≤ ((source.byInversion ρ).timeAt config nodes t g n).val ∨
      t.val + source.drawsFrom nodes g draw (n + 1) * step ≤
        ((source.byInversion ρ).timeAt config nodes t g n).val := by
  induction n with
  | zero =>
    rw [drawsFrom_succ, drawsFrom, Nat.count_zero, zero_add]
    exact le_add_gap hmean hstep t g
  | succ n ih =>
    rw [DrawSource.timeAt_succ, byInversion_afterRequest, drawsFrom_succ]
    have hlater := gapOf_nonneg hmean
      (source.unit_mem ((source.afterRequest nodes)^[n + 1] g))
    rcases ih with hreached | hsteps
    · exact .inl (hreached.trans (Rounded.le_add hlater))
    · refine (le_add_gap hmean hstep _ _).imp_right fun hgap => ?_
      rw [Nat.cast_add, add_mul, ← add_assoc]
      exact (add_le_add_left hsteps _).trans hgap

/-- A positive mean that is not lost reaches every end. -/
theorem Advances.ends (h : source.Advances config nodes g) (hmean : 0 ≤ config.meanGap.val) :
    (source.byInversion ρ).Ends config nodes g := by
  obtain ⟨draw, step, hstep, requests, hfinish⟩ := h
  obtain ⟨n, hn⟩ : ∃ n, (config.finish.secs : ℝ) ≤
      ((source.byInversion ρ).timeAt config nodes (.of ρ config.start.secs) g n).val := by
    cases requests with
    | zero =>
      rw [drawsFrom, Nat.count_zero, Nat.cast_zero, zero_mul, add_zero] at hfinish
      have hlater : (Rounded.of ρ config.start.secs).val ≤
          ((source.byInversion ρ).timeAt config nodes (.of ρ config.start.secs) g 0).val :=
        Rounded.le_add (gapOf_nonneg hmean (source.unit_mem g))
      exact ⟨0, hfinish.trans hlater⟩
    | succ n => exact ⟨n, (le_timeAt hmean hstep n).elim id hfinish.trans⟩
  exact DrawSource.ends_iff.mpr ⟨n, Time.le_ofSecs_floor_iff.mpr (.inr hn)⟩

/-- Without rounding, every positive mean reaches every end, if only a draw other than zero recurs
for ever. -/
theorem ends_of_recurs {config : DemandConfig (Rounded .exact)} {draw : ℝ}
    (hmean : 0 < config.meanGap.val) (hpos : 0 < draw)
    (hdraw : {i | draw ≤ (source.unit ((source.afterRequest nodes)^[i] g)).1}.Infinite) :
    (source.byInversion .exact).Ends config nodes g := by
  have hlt : draw < 1 := by
    obtain ⟨i, hi⟩ := hdraw.nonempty
    exact hi.trans_lt (source.unit_mem _).2
  have hgap : 0 < (gapOf config.meanGap draw).val :=
    mul_pos_of_neg_of_neg (neg_lt_zero.mpr hmean) (Real.log_neg (by linarith) (by linarith))
  obtain ⟨times, htimes⟩ := exists_nat_ge
    ((config.finish.secs - config.start.secs) / (gapOf config.meanGap draw).val)
  rw [div_le_iff₀ hgap] at htimes
  refine Advances.ends ⟨draw, _, fun _ _ => le_rfl,
    Nat.nth (fun i => draw ≤ (source.unit ((source.afterRequest nodes)^[i] g)).1) times, ?_⟩
    hmean.le
  rw [drawsFrom, Nat.count_nth_of_infinite hdraw]
  change (config.finish.secs : ℝ) ≤ config.start.secs + _
  linarith

/-- A mean is lost if the begin of demand stays what it is when the largest gap is added. -/
theorem not_ends_of_lost {largest : ℝ} (hlargest : ∀ g, (source.unit g).1 ≤ largest)
    (hlt : largest < 1) (hmean : 0 ≤ config.meanGap.val)
    (hahead : ¬config.finish ≤ .ofSecs (Scalar.floor (Rounded.of ρ config.start.secs)))
    (hlost : (Rounded.of ρ config.start.secs + gapOf config.meanGap largest).val ≤
      (Rounded.of ρ config.start.secs).val) :
    ¬(source.byInversion ρ).Ends config nodes g := by
  refine DrawSource.not_ends_of_keeps
    (P := fun t => t.val = (Rounded.of ρ config.start.secs).val) rfl ?_ ?_
  · intro t g ht
    have hdraw := source.unit_mem g
    have hgap : ((source.byInversion ρ).gap config g).val ≤ (gapOf config.meanGap largest).val :=
      gapOf_mono hmean (hlargest g) hlt
    have hsum : (t + (source.byInversion ρ).gap config g).val ≤
        (Rounded.of ρ config.start.secs + gapOf config.meanGap largest).val :=
      ρ.mono (add_le_add ht.le hgap)
    exact le_antisymm (hsum.trans hlost) (ht.ge.trans (Rounded.le_add (gapOf_nonneg hmean hdraw)))
  · intro t ht hlate
    exact hahead (Nat.le_trans hlate (Time.ofSecs_floor_mono ht.le))

end UnitSource

/-! ## A seeded generator -/

namespace Generator

/-- Draw a number in `[0, 1)` with 53 random bits. -/
noncomputable def nextUnit (g : Generator) : ℝ × Generator :=
  let (x, g) := g.next64
  ((x >>> 11).toNat / 9007199254740992, g)

theorem shifted_lt (g : Generator) : (g.next64.1 >>> 11).toNat < 9007199254740992 := by
  have hword := g.next64.1.toNat_lt
  rw [UInt64.toNat_shiftRight, Nat.shiftRight_eq_div_pow]
  change _ / 2048 < _
  omega

/-- The draws of a seeded generator, without any rounding. -/
noncomputable def units : UnitSource Generator where
  unit := nextUnit
  unit_mem g := by
    change 0 ≤ _ / _ ∧ _ / _ < _
    refine ⟨by positivity, (div_lt_one (by norm_num)).mpr ?_⟩
    exact_mod_cast g.shifted_lt
  below := below32

/-- The largest draw has all 53 bits set. -/
theorem units_le (g : Generator) : (units.unit g).1 ≤ 1 - 1 / 2 ^ 53 := by
  have hbits : ((g.next64.1 >>> 11).toNat : ℝ) + 1 ≤ 9007199254740992 := by
    exact_mod_cast g.shifted_lt
  change ((g.next64.1 >>> 11).toNat : ℝ) / 9007199254740992 ≤ 1 - 1 / 2 ^ 53
  linarith

theorem half_le_units {g : Generator} (h : 2 ^ 52 ≤ (g.next64.1 >>> 11).toNat) :
    1 / 2 ≤ (units.unit g).1 := by
  have hbits : (2 : ℝ) ^ 52 ≤ (g.next64.1 >>> 11).toNat := by exact_mod_cast h
  change (1 / 2 : ℝ) ≤ (g.next64.1 >>> 11).toNat / 9007199254740992
  linarith

end Generator

/-! ## Any mean -/

/-- Unless a positive mean is lost in rounding, the drawing of demand comes to an end if and only if
the mean is positive or not even the first request is submitted before the end of demand. -/
theorem UnitSource.ends_iff_mean_pos {G : Type} {ρ : Rounding} (source : UnitSource G)
    (config : DemandConfig (Rounded ρ)) (nodes : Nat) (g : G)
    (h : 0 < config.meanGap.val → source.Advances config nodes g) :
    (source.byInversion ρ).Ends config nodes g ↔ 0 < config.meanGap.val ∨
      config.finish ≤ (source.byInversion ρ).submission config nodes g 0 := by
  rcases lt_or_ge 0 config.meanGap.val with hmean | hmean
  · exact iff_of_true ((h hmean).ends hmean.le) (.inl hmean)
  · rw [ends_iff_of_nonpos hmean]
    exact (or_iff_right hmean.not_gt).symm

open Generator in
/-- Ten minutes of requests with a mean of a minute between them are drawn to their end, by exact
draws of a seeded generator, but there is no end with a negative mean. -/
theorem UnitSource.ends_iff_mean_pos_ofSeed :
    let minute : DemandConfig (Rounded .exact) := { meanGap := .of _ 60, finish := .ofSecs 600 }
    let backwards : DemandConfig (Rounded .exact) := { minute with meanGap := .of _ (-60) }
    units.Advances minute 2 (.ofSeed 1) ∧ (units.byInversion .exact).Ends minute 2 (.ofSeed 1) ∧
      ¬(units.byInversion .exact).Ends backwards 2 (.ofSeed 1) := by
  intro minute backwards
  have hminute : 0 < minute.meanGap.val := by
    change (0 : ℝ) < 60
    norm_num
  have hbackwards : backwards.meanGap.val < 0 := by
    change (-60 : ℝ) < 0
    norm_num
  have hadvances : units.Advances minute 2 (.ofSeed 1) := by
    have hgap : 30 ≤ (gapOf minute.meanGap (1 / 2)).val := by
      have hlog : 1 - 2⁻¹ ≤ Real.log 2 := Real.one_sub_inv_le_log_of_pos two_pos
      change 30 ≤ -(60 : ℝ) * Real.log (1 - 1 / 2)
      rw [show (1 : ℝ) - 1 / 2 = 2⁻¹ by norm_num, Real.log_inv]
      linarith
    have hlarge : 20 ≤ Nat.count (fun i => 2 ^ 52 ≤
        (((units.afterRequest 2)^[i] (.ofSeed 1)).next64.1 >>> 11).toNat) 60 := by
      decide +kernel
    have hdraws : 20 ≤ units.drawsFrom 2 (.ofSeed 1) (1 / 2) 60 :=
      hlarge.trans (Nat.count_mono_left fun _ _ hi => half_le_units hi)
    refine ⟨1 / 2, 30, fun t _ => add_le_add_right hgap t.val, 60, ?_⟩
    have hsteps : (20 : ℝ) ≤ units.drawsFrom 2 (.ofSeed 1) (1 / 2) 60 := by exact_mod_cast hdraws
    change ((600 : Nat) : ℝ) ≤ ((0 : Nat) : ℝ) + _ * 30
    push_cast
    linarith
  refine ⟨hadvances, (ends_iff_mean_pos _ _ _ _ fun _ => hadvances).mpr (.inl hminute), ?_⟩
  rw [ends_iff_mean_pos _ _ _ _ fun hmean => absurd hmean hbackwards.not_gt,
    or_iff_right hbackwards.not_gt, DrawSource.submission, Time.le_ofSecs_floor_iff]
  rintro (hzero | hlate)
  · exact absurd hzero (by decide)
  · have hgap := gapOf_nonpos hbackwards.le (units.unit_mem (.ofSeed 1))
    change ((600 : Nat) : ℝ) ≤ ((0 : Nat) : ℝ) + (gapOf backwards.meanGap _).val at hlate
    norm_num at hlate
    linarith

/-! ## Demand without an end -/

namespace Generator

/-- Zero times anything is a zero of either sign, or undefined. -/
theorem negZero_mul (y : Float) :
    -(0.0 : Float) * y = 0.0 ∨ -(0.0 : Float) * y = -0.0 ∨ -(0.0 : Float) * y = 0.0 / 0.0 := by
  open Float.Model in
  have hmul : -(0.0 : Float) * y =
      ⟨.pack (.mul Format.binary64 (.zero .negative) y.toModel.unpack)⟩ := rfl
  rw [hmul]
  cases y.toModel.unpack with
  | infinity | notANumber => exact .inr (.inr rfl)
  | zero sign | finite sign =>
    cases sign with
    | positive => exact .inr (.inl rfl)
    | negative => exact .inl rfl

/-- With a mean of zero, requests fill the first second for ever, whatever the logarithm of a
floating-point number is. -/
theorem not_ends_of_mean_zero (nodes : Nat) (g : Generator) :
    ¬source.Ends { meanGap := 0.0 } nodes g := by
  refine DrawSource.not_ends_of_keeps (P := fun t => t = 0.0 ∨ t = 0.0 / 0.0) (.inl rfl) ?_ ?_
  · intro t g ht
    have hgap := negZero_mul (1.0 - g.nextFloat.1).log
    change source.gap { meanGap := 0.0 } g = _ ∨ source.gap { meanGap := 0.0 } g = _ ∨
      source.gap { meanGap := 0.0 } g = _ at hgap
    generalize source.gap { meanGap := 0.0 } g = gap at hgap ⊢
    rcases ht with rfl | rfl <;> rcases hgap with rfl | rfl | rfl <;> decide
  · rintro t (rfl | rfl) <;> decide

/-- Where only even seconds are told apart, a mean of less than two fifty-thirds of a second is
lost, since no draw makes a gap of more than 53 times the mean. -/
theorem not_ends_of_coarse {bound nodes : Nat} {config : DemandConfig (Rounded (.evenFrom bound))}
    (hstart : config.start.secs = 2 * bound) (hahead : config.start < config.finish)
    (hmean : 0 ≤ config.meanGap.val) (hsmall : 53 * config.meanGap.val < 2) (g : Generator) :
    ¬(units.byInversion (.evenFrom bound)).Ends config nodes g := by
  have hbegin : (Rounded.of (.evenFrom bound) config.start.secs).val = 2 * bound := by
    rw [hstart, Nat.cast_mul, Nat.cast_two]
    exact Rounding.evenFrom_bound bound
  have htwo : 0 < Real.log 2 ∧ Real.log 2 ≤ 1 :=
    ⟨Real.log_pos one_lt_two, by linarith [Real.log_le_sub_one_of_pos (zero_lt_two (α := ℝ))]⟩
  have hlog : Rounding.evenFrom bound (Real.log (1 - (1 - 1 / 2 ^ 53))) = -(53 * Real.log 2) := by
    rw [sub_sub_cancel, one_div, Real.log_inv, Real.log_pow, Nat.cast_ofNat]
    exact Rounding.evenFrom_of_lt (by linarith [(Nat.cast_nonneg bound : (0 : ℝ) ≤ bound)])
  have hgap : (UnitSource.gapOf config.meanGap (1 - 1 / 2 ^ 53)).val < 2 := by
    change Rounding.evenFrom bound (-config.meanGap.val * _) < 2
    refine (Rounding.evenFrom_le bound _).trans_lt ?_
    rw [hlog]
    nlinarith
  refine UnitSource.not_ends_of_lost units_le (by norm_num) hmean ?_ ?_
  · have hlater : 2 * bound < config.finish.secs := hstart ▸ hahead
    rw [Time.le_ofSecs_floor_iff, hbegin]
    rintro (hzero | hlate)
    · omega
    · exact absurd (by exact_mod_cast hlate) hlater.not_ge
  · rw [Rounded.val_add, hbegin]
    exact Rounding.evenFrom_le_bound (by linarith)

/-- Settings with a mean of zero are read, but the demand that they describe has no end. By exact
draws, neither has demand with a negative mean, even where its end is its begin. And a mean of a
hundredth of a second is positive, but lost from `2 ^ 53` seconds on, where floating-point numbers
no longer tell odd seconds apart. -/
theorem endless_demand :
    (∃ config : DemandConfig Float,
      DemandConfig.read? .usual (.object [("mean_interarrival_secs", .whole 0)]) = some config ∧
        ¬source.Ends config 2 (.ofSeed 1) ∧ source.generate config 2 (.ofSeed 1) = none) ∧
      ¬(units.byInversion .exact).Ends { meanGap := .of _ (-60), start := .ofSecs 3600 } 2
        (.ofSeed 1) ∧
      ¬(units.byInversion (.evenFrom (2 ^ 52))).Ends
        { meanGap := .of _ (1 / 100), start := .ofSecs (2 ^ 53), finish := .ofSecs (2 ^ 53 + 1) } 2
        (.ofSeed 1) := by
  have hzero := not_ends_of_mean_zero 2 (.ofSeed 1)
  refine ⟨⟨_, rfl, hzero, DrawSource.generate_eq_none le_rfl hzero⟩, ?_, ?_⟩
  · have hmean : (Rounded.of .exact (-60)).val < 0 := by
      change (-60 : ℝ) < 0
      norm_num
    rw [UnitSource.ends_iff_of_nonpos hmean.le, DrawSource.submission, Time.le_ofSecs_floor_iff]
    rintro (hzero | hlate)
    · exact absurd hzero (by decide)
    · have hdraw : (0 : ℝ) < (units.unit (.ofSeed 1)).1 := by
        have hbits : 0 < ((ofSeed 1).next64.1 >>> 11).toNat := by decide +kernel
        change (0 : ℝ) < ((ofSeed 1).next64.1 >>> 11).toNat / 9007199254740992
        positivity
      have hlog : Real.log (1 - (units.unit (.ofSeed 1)).1) < 0 :=
        Real.log_neg (by linarith [(units.unit_mem (.ofSeed 1)).2]) (by linarith)
      change ((3600 : Nat) : ℝ) ≤ ((3600 : Nat) : ℝ) + -(-60 : ℝ) * Real.log _ at hlate
      linarith
  · have hmean : (Rounded.of (.evenFrom (2 ^ 52)) (1 / 100)).val = 1 / 100 :=
      Rounding.evenFrom_of_lt (by norm_num)
    refine not_ends_of_coarse rfl (by decide) ?_ ?_ _ <;> rw [hmean] <;> norm_num

end Generator

end DemandTransport
