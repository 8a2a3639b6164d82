import Mathlib.Algebra.Order.Ring.Rat
import Mathlib.Tactic.FieldSimp
import Mathlib.Tactic.Linarith
import Mathlib.Tactic.Ring
import DemandTransport.Proofs.Dispatch.Appending

/-!
# Idle time that is cut up draws what it did

Idle time accounts for its energy in proportion to its seconds. Over the rational numbers, whatever
is cut from it and whatever is left of it therefore changes the charge at the same rate as before.
-/

namespace DemandTransport

/-- A task changes the charge by so much a second. -/
def Task.DrawsAt (rate : Rat) (task : Task Rat) : Prop :=
  task.energyOrZero = rate * (task.duration : Rat)

namespace Task

variable {rate : Rat} {task : Task Rat} {t start finish : Time}

/-- A change of the energy that is noted, if it keeps nothing as it is, changes what is accounted
for. -/
theorem energyOrZero_map {energy : Option Rat} {f : Rat → Rat} (hf : f 0 = 0)
    (h : task.energy = energy.map f) : task.energyOrZero = f (energy.getD 0) := by
  unfold energyOrZero
  rw [h]
  cases energy with
  | none => exact hf.symm
  | some kwh => rfl

theorem duration_ne_zero (h : task.start < task.finish) : (task.duration : Rat) ≠ 0 := by
  have hpos : task.duration ≠ 0 := by
    simp only [duration, Time.since, Time.lt_iff] at *
    omega
  exact_mod_cast hpos

/-- Every task that takes time has its rate. -/
theorem exists_drawsAt (h : task.start < task.finish) : ∃ rate, task.DrawsAt rate := by
  have hduration := duration_ne_zero h
  exact ⟨task.energyOrZero / task.duration, by unfold DrawsAt; field_simp⟩

/-- The part of a task before an instant draws at the same rate. -/
theorem DrawsAt.headUntil (h : task.DrawsAt rate) (hlasts : task.start < task.finish) (t : Time) :
    (task.headUntil t).DrawsAt rate := by
  have hduration := duration_ne_zero hlasts
  have henergy : (task.headUntil t).energyOrZero =
      task.energyOrZero * ((t.since task.start : Nat) / (task.duration : Rat)) :=
    energyOrZero_map (f := fun kwh : Rat =>
      kwh * ((t.since task.start : Nat) / (task.duration : Rat))) (by simp) rfl
  unfold DrawsAt at *
  rw [henergy, h]
  change _ = rate * ((t.since task.start : Nat) : Rat)
  field_simp

/-- The part of a task from an instant on draws at the same rate. -/
theorem DrawsAt.tailFrom (h : task.DrawsAt rate) (hstart : task.start ≤ t)
    (hfinish : t < task.finish) : (task.tailFrom t).DrawsAt rate := by
  have hlasts : task.start < task.finish := by
    simp only [Time.le_iff, Time.lt_iff] at *
    omega
  have hduration := duration_ne_zero hlasts
  have hsplit : (task.duration : Rat) =
      (t.since task.start : Nat) + (task.finish.since t : Nat) := by
    have hsecs : task.duration = t.since task.start + task.finish.since t := by
      simp only [duration, Time.since, Time.le_iff, Time.lt_iff] at *
      omega
    exact_mod_cast hsecs
  have henergy : (task.tailFrom t).energyOrZero = task.energyOrZero -
      task.energyOrZero * ((t.since task.start : Nat) / (task.duration : Rat)) :=
    energyOrZero_map (f := fun kwh : Rat =>
      kwh - kwh * ((t.since task.start : Nat) / (task.duration : Rat))) (by simp) rfl
  unfold DrawsAt at *
  rw [henergy, h]
  change _ = rate * ((task.finish.since t : Nat) : Rat)
  have hrest : ((task.finish.since t : Nat) : Rat) =
      task.duration - (t.since task.start : Nat) := by linarith
  rw [hrest]
  field_simp

theorem DrawsAt.partBefore (h : task.DrawsAt rate) (hlasts : task.start < task.finish) (t : Time) :
    ∀ part ∈ task.partBefore t, part.DrawsAt rate := by
  unfold Task.partBefore
  split
  · simpa using h.headUntil hlasts t
  · simp

theorem DrawsAt.partFrom (h : task.DrawsAt rate) (hstart : task.start ≤ t)
    (hfinish : t < task.finish) : (task.partFrom t).DrawsAt rate := by
  unfold Task.partFrom
  split
  · exact h.tailFrom hstart hfinish
  · exact h

/-- A share of what is accounted for is in proportion to the seconds. -/
theorem energyShare_eq (hlasts : task.start < task.finish) (h : task.DrawsAt rate) (secs : Nat) :
    energyShare task.energyOrZero secs task.duration = rate * (secs : Rat) := by
  have hduration := duration_ne_zero hlasts
  unfold DrawsAt at h
  unfold energyShare
  rw [if_neg (by exact_mod_cast hduration), h]
  change rate * (task.duration : Rat) * (secs : Rat) / (task.duration : Rat) = _
  field_simp

/-- Of no energy any share is none. -/
theorem energyShare_zero (secs total : Nat) : energyShare (0 : Rat) secs total = 0 := by
  unfold energyShare
  split
  · rfl
  · change (0 : Rat) * (secs : Rat) / (total : Rat) = 0
    simp

/-- Without its head a task draws at the same rate. -/
theorem DrawsAt.trimHead (h : task.DrawsAt rate) (hlasts : task.start < task.finish) (t : Time) :
    (task.trimHead t).DrawsAt rate := by
  have henergy : (task.trimHead t).energyOrZero =
      energyShare task.energyOrZero (task.finish.since t) task.duration :=
    energyOrZero_map (f := fun kwh : Rat => energyShare kwh (task.finish.since t) task.duration)
      (energyShare_zero _ _) rfl
  unfold DrawsAt
  rw [henergy, energyShare_eq hlasts h]
  rfl

/-- Between two instants a task draws its rate times the seconds between them. -/
theorem DrawsAt.shareBetween (h : task.DrawsAt rate) (hlasts : task.start < task.finish)
    (start finish : Time) :
    task.shareBetween start finish = rate * ((finish.since start : Nat) : Rat) := by
  have hshare : task.shareBetween start finish =
      energyShare task.energyOrZero (finish.since start) task.duration := by
    unfold Task.shareBetween energyOrZero
    cases task.energy with
    | none => exact (energyShare_zero _ _).symm
    | some kwh => rfl
  rw [hshare, energyShare_eq hlasts h]

end Task

/-- What a task leaves of idle time draws at its rate. -/
theorem Schedule.remainder_drawsAt {rate : Rat} {stay task : Task Rat} (h : stay.DrawsAt rate)
    (hlasts : stay.start < stay.finish) : ∀ left ∈ remainder stay task, left.DrawsAt rate := by
  intro left hleft
  by_cases hall : task.finish = stay.finish
  · simp [remainder_eq_nil hall] at hleft
  · obtain ⟨only, honly, -, -, hbegins, hends, -, -, henergy⟩ := remainder_of_ne hall
    rw [honly, List.mem_singleton] at hleft
    subst hleft
    have htrimmed := h.trimHead hlasts task.finish
    unfold Task.DrawsAt Task.energyOrZero Task.duration at *
    rw [henergy, hbegins, hends]
    exact htrimmed

/-- What tasks leave of idle time draws at its rate. -/
theorem Schedule.leftover_drawsAt {rate : Rat} {stay : Task Rat} {tasks : List (Task Rat)}
    {a node : NodeId} {t : Time} (h : stay.DrawsAt rate) (hlasts : stay.start < stay.finish)
    (hleads : Leads a stay.start tasks node t) (ht : t ≤ stay.finish) :
    ∀ left ∈ leftover stay tasks, left.DrawsAt rate := by
  induction tasks generalizing stay a with
  | nil => simpa [leftover] using h
  | cons task rest ih =>
    generalize hstart : stay.start = start at hleads
    cases hleads with
    | cons sound fresh later =>
      intro left hleft
      obtain ⟨middle, hmiddle, hleft⟩ := List.mem_flatMap.mp hleft
      have hrate := remainder_drawsAt h hlasts middle hmiddle
      by_cases hall : task.finish = stay.finish
      · simp [remainder_eq_nil hall] at hmiddle
      · obtain ⟨only, honly, -, -, hbegins, hends, -⟩ := remainder_of_ne hall
        rw [honly, List.mem_singleton] at hmiddle
        subst hmiddle
        have hle := later.le
        refine ih hrate ?_ (by rwa [hbegins]) (by rwa [hends]) left hleft
        rw [hbegins, hends]
        simp only [Time.le_iff, Time.lt_iff, Time.eq_iff] at *
        omega

end DemandTransport
