import DemandTransport.Dispatch.Charging

/-!
# The clock within its word

As long as the seconds since step zero fit into a word, the clock goes from one time of the grid to
the next one and never goes back. Beyond that it begins anew, so what is to hold of later times is
shown up to there only.
-/

namespace DemandTransport.Clock

/-- The seconds since step zero fit into a word. -/
def InRange (c : Clock) : Prop :=
  c.step * c.stepSecs ≤ wordLimit

instance (c : Clock) : Decidable c.InRange :=
  inferInstanceAs (Decidable (_ ≤ _))

/-- The times at which the clock executes schedules. -/
def grid (c : Clock) : StepGrid := ⟨c.start, c.stepSecs⟩

/-- The time of the next step, unless the clock runs over before. -/
def next (c : Clock) : Time := c.start.offset ((c.step + 1) * c.stepSecs)

/-- A condition on clocks that is not met again once it has not been met. -/
class Lasts (While : Clock → Prop) : Prop where
  of_advance : ∀ {c : Clock}, While c.advance → While c

instance : Lasts fun _ => True where
  of_advance _ := trivial

variable {c : Clock} {t : Time}

/-- A clock that has not run over had not done so before. -/
theorem InRange.of_le {step : Nat} (h : c.InRange) (hle : step ≤ c.step) :
    InRange { c with step := step } :=
  Nat.le_trans (Nat.mul_le_mul_right _ hle) h

theorem InRange.of_advance (h : c.advance.InRange) : c.InRange :=
  h.of_le (Nat.le_succ _)

instance : Lasts InRange where
  of_advance := InRange.of_advance

namespace InRange

/-- While the product fits, the clock stands as many steps behind its start as were made. -/
theorem now_eq (h : c.InRange) : c.now = c.start.offset (c.step * c.stepSecs) := by
  rw [now, Nat.mod_eq_of_lt (Nat.lt_succ_of_le h)]

/-- A step takes the clock to the next time of its grid. -/
theorem now_advance (h : c.advance.InRange) : c.advance.now = c.next :=
  h.now_eq

/-- The next time of the grid is not before the present one. -/
theorem now_le_next (h : c.InRange) : c.now ≤ c.next := by
  have hmul : (c.step + 1) * c.stepSecs = c.step * c.stepSecs + c.stepSecs := Nat.succ_mul _ _
  rw [h.now_eq]
  simp only [next, Time.le_iff, Time.secs_offset]
  omega

/-- The first step at or after an instant of the past is not to come. -/
theorem snap_le (hrange : c.InRange) (h : t ≤ c.now) (hstep : c.stepSecs ≠ 0) :
    c.grid.snap t ≤ c.now := by
  rw [hrange.now_eq] at h ⊢
  simp only [grid, StepGrid.snap, ceilDiv, Time.since, Time.le_iff, Time.secs_offset] at h ⊢
  have hmax : max c.stepSecs 1 = c.stepSecs := by omega
  rw [hmax]
  have hdiv : (t.secs - c.start.secs + c.stepSecs - 1) / c.stepSecs ≤ c.step := by
    refine Nat.le_of_lt_succ ((Nat.div_lt_iff_lt_mul (by omega)).mpr ?_)
    rw [Nat.succ_mul]
    omega
  have hmul := Nat.mul_le_mul_right c.stepSecs hdiv
  omega

/-- The first step at or after an instant to come is a later one. -/
theorem le_snap (hrange : c.InRange) (h : c.now < t) (hstep : c.stepSecs ≠ 0) :
    c.next ≤ c.grid.snap t := by
  have hlimit := t.secs_le
  rw [hrange.now_eq] at h
  simp only [grid, next, StepGrid.snap, ceilDiv, Time.since, Time.le_iff, Time.lt_iff,
    Time.secs_offset] at h ⊢
  have hmax : max c.stepSecs 1 = c.stepSecs := by omega
  rw [hmax]
  have hdiv : c.step + 1 ≤ (t.secs - c.start.secs + c.stepSecs - 1) / c.stepSecs := by
    refine (Nat.le_div_iff_mul_le (by omega)).mpr ?_
    rw [Nat.succ_mul]
    omega
  have hmul := Nat.mul_le_mul_right c.stepSecs hdiv
  omega

end InRange

end DemandTransport.Clock
