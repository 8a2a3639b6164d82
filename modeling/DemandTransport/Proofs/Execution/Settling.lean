import DemandTransport.Proofs.Execution.Course
import DemandTransport.Proofs.Fleet.Roster

/-!
# Step by step or at once

A vehicle is brought up to an instant by one beat after the other until nothing is due. What a beat
does depends on the state alone and not on the instant, so all beats that are due by an earlier
instant are the first ones of those due by a later one. It makes no difference, therefore, in how
many steps a vehicle is brought up to an instant, whatever its tasks are, and every step comes to an
end since each task has two beats at most.
-/

namespace DemandTransport

variable {R : Type} [Scalar R]

namespace VehicleState

/-- Beats bring a vehicle from one state to another one, in which nothing is due by an instant. -/
inductive Settles (now : Time) : VehicleState R → List (TaskEvent R) → VehicleState R → Prop where
  /-- Nothing is due. -/
  | rest {state : VehicleState R} (h : advanceOnce now state = .ok none state) :
    Settles now state [] state
  /-- A beat is made, and others after it. -/
  | beat {state mid left : VehicleState R} {event : TaskEvent R} {later : List (TaskEvent R)}
    (h : advanceOnce now state = .ok (some event) mid) (rest : Settles now mid later left) :
    Settles now state (event :: later) left

variable {now t₁ t₂ : Time} {state mid left : VehicleState R} {events : List (TaskEvent R)}

/-- What is done with the first open task, if there is one. -/
theorem advanceOnce_eq (now : Time) (state : VehicleState R) :
    advanceOnce now state =
      match state.vehicle.schedule.firstOpen? with
      | none => .ok none state
      | some (index, task) =>
        if task.status = .planned ∧ task.start ≤ now then (some <$> startTask index task) state
        else if task.status = .started ∧ task.finish ≤ now then (some <$> endTask index task) state
        else .ok none state := by
  have hget : (get : Action (ExecutionError R) (VehicleState R) _) state = .ok state state := rfl
  unfold advanceOnce
  rw [Action.bind_of_ok hget]
  cases state.vehicle.schedule.firstOpen? with
  | none => rfl
  | some found =>
    dsimp only
    split
    · rfl
    · split <;> rfl

/-- What is due by an instant is due by a later one. -/
theorem advanceOnce_mono (hle : t₁ ≤ t₂) {event : TaskEvent R}
    (h : advanceOnce t₁ state = .ok (some event) mid) :
    advanceOnce t₂ state = .ok (some event) mid := by
  rw [advanceOnce_eq] at h ⊢
  cases hfirst : state.vehicle.schedule.firstOpen? with
  | none => simp [hfirst] at h
  | some found =>
    obtain ⟨index, task⟩ := found
    simp only [hfirst] at h ⊢
    split at h
    next hstart => rwa [if_pos ⟨hstart.1, Nat.le_trans hstart.2 hle⟩]
    next =>
      split at h
      next hend =>
        rw [if_neg (by simp [hend.1])]
        rwa [if_pos ⟨hend.1, Nat.le_trans hend.2 hle⟩]
      next => cases h

namespace Settles

/-- At the end nothing is due. -/
theorem atRest (h : Settles now state events left) : advanceOnce now left = .ok none left := by
  induction h with
  | rest h => exact h
  | beat _ _ ih => exact ih

/-- Beats by an instant are followed by those by a later one. -/
theorem join (hle : t₁ ≤ t₂) {early late : List (TaskEvent R)} (h : Settles t₁ state early mid)
    (h' : Settles t₂ mid late left) : Settles t₂ state (early ++ late) left := by
  induction h with
  | rest _ => exact h'
  | beat honce _ ih => exact .beat (advanceOnce_mono hle honce) (ih h')

/-- Rounds that are enough for all beats make exactly these. -/
theorem advanceUpTo_eq (h : Settles now state events left) {bound : Nat}
    (hbound : events.length ≤ bound) : advanceUpTo now bound state = .ok events left := by
  induction h generalizing bound with
  | rest honce =>
    cases bound with
    | zero => rfl
    | succ bound =>
      rw [advanceUpTo, Action.bind_of_ok honce]
      rfl
  | beat honce _ ih =>
    cases bound with
    | zero => simp at hbound
    | succ bound =>
      rw [advanceUpTo, Action.bind_of_ok honce]
      dsimp only
      rw [Action.bind_of_ok (ih (by simpa using hbound))]
      rfl

/-- A property of states that every beat keeps holds at the end. -/
theorem keeps {P : VehicleState R → Prop} (h : Settles now state events left)
    (hbeat : ∀ {s s' : VehicleState R} {event : TaskEvent R}, P s →
      advanceOnce now s = .ok (some event) s' → P s') (hP : P state) : P left := by
  induction h with
  | rest _ => exact hP
  | beat honce _ ih => exact ih (hbeat hP honce)

/-- Every beat uses one up. -/
theorem length_add_beatsLeft (h : Settles now state events left)
    (hsupplied : state.vehicle.schedule.Supplied state.chargers) :
    events.length + left.vehicle.schedule.beatsLeft = state.vehicle.schedule.beatsLeft := by
  induction h with
  | rest _ => simp
  | beat honce _ ih =>
    have hbeat := (advanceOnce_beats hsupplied).of_ok honce
    have hlater := ih (hbeat.supplied_after hsupplied)
    have hleft := hbeat.beatsLeft
    rw [List.length_cons]
    omega

/-- All of its beats are made when a vehicle is brought up to an instant. -/
theorem advance_eq (h : Settles now state events left)
    (hsupplied : state.vehicle.schedule.Supplied state.chargers) :
    advance now state = .ok events left := by
  have hlength := h.length_add_beatsLeft hsupplied
  have hbeats := state.vehicle.schedule.beatsLeft_le
  exact h.advanceUpTo_eq (by omega)

end Settles

/-- A vehicle whose chargers exist can be brought up to any instant. -/
theorem exists_settles (now : Time)
    (hsupplied : state.vehicle.schedule.Supplied state.chargers) :
    ∃ events left, Settles now state events left ∧
      left.vehicle.schedule.Supplied left.chargers := by
  generalize hbeats : state.vehicle.schedule.beatsLeft = beats
  induction beats generalizing state with
  | zero =>
    obtain ⟨_ | event, mid, honce, hmid⟩ := (@advanceOnce_beats R _ state now hsupplied).exists_ok
    · obtain ⟨rfl, -⟩ := hmid
      exact ⟨[], _, .rest honce, hsupplied⟩
    · have hleft := hmid.beatsLeft
      omega
  | succ beats ih =>
    obtain ⟨_ | event, mid, honce, hmid⟩ := (@advanceOnce_beats R _ state now hsupplied).exists_ok
    · obtain ⟨rfl, -⟩ := hmid
      exact ⟨[], _, .rest honce, hsupplied⟩
    · have hleft := hmid.beatsLeft
      obtain ⟨later, left, hlater, hlast⟩ := ih (hmid.supplied_after hsupplied) (by omega)
      exact ⟨event :: later, left, .beat honce hlater, hlast⟩

/-- Where nothing is due, nothing is done. -/
theorem advanceUpTo_of_atRest (h : state.vehicle.schedule.AtRest now) {rounds : Nat} :
    advanceUpTo now rounds state = .ok [] state := by
  cases rounds with
  | zero => rfl
  | succ rounds =>
    have honce : advanceOnce now state = .ok none state := by
      rw [advanceOnce_eq]
      split
      · rfl
      next index task hfirst =>
        obtain ⟨hstarts, hends⟩ := h index task hfirst
        rw [if_neg fun hdue => Nat.not_le.mpr (hstarts hdue.1) hdue.2,
          if_neg fun hdue => Nat.not_le.mpr (hends hdue.1) hdue.2]
    rw [advanceUpTo, Action.bind_of_ok honce]
    rfl

/-- Where no beat is left, nothing is due. -/
theorem advanceUpTo_of_over (h : state.vehicle.schedule.beatsLeft = 0) {rounds : Nat} :
    advanceUpTo now rounds state = .ok [] state := by
  refine advanceUpTo_of_atRest fun index task hfirst => ?_
  obtain ⟨before, after, htasks, -, -, hopen⟩ := Schedule.firstOpen?_eq_some hfirst
  exact (hopen (Schedule.performed_of_beatsLeft h task (by simp [htasks]))).elim

/-- Rounds for every beat that is left make no difference to one another, also where one fails. -/
theorem advanceUpTo_eq_of_le {rounds others : Nat}
    (hrounds : state.vehicle.schedule.beatsLeft ≤ rounds)
    (hothers : state.vehicle.schedule.beatsLeft ≤ others) :
    advanceUpTo now rounds state = advanceUpTo now others state := by
  induction rounds generalizing others state with
  | zero => rw [advanceUpTo_of_over (by omega), advanceUpTo_of_over (by omega)]
  | succ rounds ih =>
    cases others with
    | zero => rw [advanceUpTo_of_over (by omega), advanceUpTo_of_over (by omega)]
    | succ others =>
      rw [advanceUpTo, advanceUpTo]
      refine Action.bind_congr rfl fun told mid honce => ?_
      cases told with
      | none => rfl
      | some event =>
        have hleft := (advanceOnce_beats_or_fails.of_ok honce).beatsLeft
        exact Action.bind_congr (ih (by omega) (by omega)) fun _ _ _ => rfl

/-- A vehicle can be brought up to any instant in twice as many rounds as it has tasks: whatever its
tasks are, more rounds change nothing, neither what is told nor how a failure leaves the vehicle. -/
theorem advanceUpTo_eq_advance (now : Time) (state : VehicleState R) {rounds : Nat}
    (h : 2 * state.vehicle.schedule.tasks.length ≤ rounds) :
    advanceUpTo now rounds state = advance now state := by
  have hget : (get : Action (ExecutionError R) (VehicleState R) _) state = .ok state state := rfl
  have hbeats := state.vehicle.schedule.beatsLeft_le
  rw [advance, Action.bind_of_ok hget]
  exact advanceUpTo_eq_of_le (hbeats.trans h) hbeats

/-- A vehicle of which all chargers are known can be brought up to any instant, with at most two
events for each task, and then nothing is due any more. It makes no difference if it is brought up
to an earlier instant before: the same is told, and vehicle, place and chargers end as they do
without this. -/
theorem advance_in_two_steps (hsupplied : state.vehicle.schedule.Supplied state.chargers)
    (hle : t₁ ≤ t₂) :
    ∃ early late mid left,
      advance t₁ state = .ok early mid ∧ advance t₂ mid = .ok late left ∧
      advance t₂ state = .ok (early ++ late) left ∧ advanceOnce t₂ left = .ok none left ∧
      ∀ bound, 2 * state.vehicle.schedule.tasks.length ≤ bound →
        advanceUpTo t₂ bound state = .ok (early ++ late) left := by
  obtain ⟨early, mid, hearly, hmid⟩ := exists_settles t₁ hsupplied
  obtain ⟨late, left, hlate, -⟩ := exists_settles t₂ hmid
  have hboth := hearly.join hle hlate
  have hlength := hboth.length_add_beatsLeft hsupplied
  have hbeats := state.vehicle.schedule.beatsLeft_le
  exact ⟨early, late, mid, left, hearly.advance_eq hsupplied, hlate.advance_eq hmid,
    hboth.advance_eq hsupplied, hboth.atRest, fun bound hbound => hboth.advanceUpTo_eq (by omega)⟩

/-- The first of two sessions is given up, since another vehicle holds the plug. In the middle of
the second one there may be a step. -/
theorem advance_in_two_steps_two_sessions :
    let session (id : ChargerId) (start finish : Nat) : Task Rat :=
      (Task.charge id ⟨0⟩ (.ofSecs start) (.ofSecs finish)).withEnergy 5
    let tasks : List (Task Rat) :=
      [session ⟨7⟩ 0 40, Task.stay ⟨0⟩ (.ofSecs 40) (.ofSecs 60), session ⟨8⟩ 60 80,
        Task.stay ⟨0⟩ (.ofSecs 80) (.ofSecs 100)]
    let v : Vehicle Rat := ⟨⟨0⟩, ⟨0⟩, .zero, .ofSecs 100, 4, none, ⟨tasks⟩⟩
    let pool : ChargerPool Rat := ⟨[⟨⟨7⟩, ⟨0⟩, 50, 1, [⟨3⟩]⟩, ⟨⟨8⟩, ⟨0⟩, 50, 1, []⟩]⟩
    let state : VehicleState Rat := ⟨v, .stationary ⟨0⟩ .zero, pool⟩
    v.schedule.Supplied pool ∧
      ∃ early late mid left,
        advance (.ofSecs 70) state = .ok early mid ∧ advance (.ofSecs 90) mid = .ok late left ∧
        advance (.ofSecs 90) state = .ok (early ++ late) left ∧
        early.length = 5 ∧ late.length = 2 ∧
        mid.vehicle.schedule.tasks.map Task.energy = [some 0, none, some 5, none] ∧
        mid.chargers.plugged ⟨8⟩ = [⟨0⟩] ∧ left.chargers.plugged ⟨8⟩ = [] := by
  intro session tasks v pool state
  have hsupplied : v.schedule.Supplied pool := by
    simp [v, tasks, session, pool, Schedule.Supplied, Task.charge, Task.stay, Task.withEnergy,
      ChargerPool.find?]
  obtain ⟨early, late, mid, left, hearly, hlate, hboth, -⟩ :=
    @advance_in_two_steps Rat _ (.ofSecs 70) (.ofSecs 90) state hsupplied (by decide)
  have hfirst : ((advance (.ofSecs 70)).outcome state).1.toOption.map List.length = some 5 ∧
      ((advance (.ofSecs 70)).outcome state).2.vehicle.schedule.tasks.map Task.energy =
        [some 0, none, some 5, none] ∧
      ((advance (.ofSecs 70)).outcome state).2.chargers.plugged ⟨8⟩ = [⟨0⟩] := by decide +kernel
  have hsecond : ((advance (.ofSecs 90)).outcome state).1.toOption.map List.length = some 7 ∧
      ((advance (.ofSecs 90)).outcome state).2.chargers.plugged ⟨8⟩ = [] := by decide +kernel
  simp only [Action.outcome, hearly, hboth, Except.toOption, Option.map_some, Option.some.injEq,
    List.length_append] at hfirst hsecond
  exact ⟨hsupplied, early, late, mid, left, hearly, hlate, hboth, hfirst.1, by omega, hfirst.2.1,
    hfirst.2.2, hsecond.2⟩

end VehicleState

end DemandTransport
