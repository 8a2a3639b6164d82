import DemandTransport.Decimal.Digits
import DemandTransport.Scalar

/-!
# Times

A time is a whole number of seconds since the start of a scenario, at most `wordLimit`. Schedules
compare task boundaries for equality, so the unit is whole; adding seconds stops at the largest
time instead of running over.
-/

namespace DemandTransport

/-- An instant, in whole seconds since the start of the scenario. -/
structure Time where
  /-- Seconds since the start of the scenario. -/
  secs : Nat
  /-- The seconds fit into a word. -/
  secs_le : secs ≤ wordLimit := by decide
  deriving DecidableEq, Repr

namespace Time

/-- The start of the scenario. -/
def zero : Time := ⟨0, Nat.zero_le _⟩

/-- The last instant there is. -/
def last : Time := ⟨wordLimit, Nat.le_refl _⟩

instance : Inhabited Time := ⟨zero⟩

/-- The instant a number of seconds after the start, or the last one there is. -/
def ofSecs (n : Nat) : Time := ⟨min n wordLimit, Nat.min_le_right _ _⟩

instance : LE Time := ⟨fun a b => a.secs ≤ b.secs⟩

instance : LT Time := ⟨fun a b => a.secs < b.secs⟩

instance : DecidableLE Time := fun a b => Nat.decLe a.secs b.secs

instance : DecidableLT Time := fun a b => Nat.decLt a.secs b.secs

instance : Max Time := maxOfLe

instance : Min Time := minOfLe

theorem le_iff {a b : Time} : a ≤ b ↔ a.secs ≤ b.secs := Iff.rfl

theorem lt_iff {a b : Time} : a < b ↔ a.secs < b.secs := Iff.rfl

theorem eq_iff {a b : Time} : a = b ↔ a.secs = b.secs :=
  ⟨fun h => h ▸ rfl, fun h => by cases a; cases b; cases h; rfl⟩

/-- The instant `secs` seconds later, or the last one there is. -/
def offset (t : Time) (secs : Nat) : Time := ofSecs (t.secs + secs)

@[simp] theorem secs_offset (t : Time) (secs : Nat) :
    (t.offset secs).secs = min (t.secs + secs) wordLimit := rfl

/-- Seconds from `earlier` to `t`, none if `earlier` is later. -/
def since (t earlier : Time) : Nat := t.secs - earlier.secs

/-- The time in hours. -/
def hours (t : Time) : Float := Scalar.ofNat t.secs / 3600.0

/-- Hours, minutes and seconds of the day, behind the number of the day from the second day on. -/
def text (t : Time) : String :=
  let days := t.secs / 86400
  let ofDay := Decimal.twoDigits (t.secs % 86400 / 3600) ++ ":" ++
    Decimal.twoDigits (t.secs % 3600 / 60) ++ ":" ++ Decimal.twoDigits (t.secs % 60)
  if 0 < days then "d" ++ Decimal.ofNat days ++ " " ++ ofDay else ofDay

end Time

end DemandTransport
