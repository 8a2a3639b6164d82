import DemandTransport.Proofs.Execution.Beat

/-!
# The course of execution

Bringing the vehicles up to an instant makes beats until none is due. A property of the vehicles,
the chargers and an account that is kept of the events, which every beat preserves, therefore holds
at the end, with the account of all events in the order in which they are told.
-/

namespace DemandTransport

variable {R : Type}

/-- Every task of a schedule that is not over ends after an instant. -/
def Schedule.Settled (now : Time) (s : Schedule R) : Prop :=
  ∀ task ∈ s.tasks, task.status ≠ .performed → now < task.finish

/-- How many beats some tasks have left. -/
def beatsOf : List (Task R) → Nat
  | [] => 0
  | task :: rest => 2 - task.status.rank + beatsOf rest

theorem beatsOf_append (a b : List (Task R)) : beatsOf (a ++ b) = beatsOf a + beatsOf b := by
  induction a with
  | nil => simp [beatsOf]
  | cons task rest ih =>
    simp only [List.cons_append, beatsOf, ih]
    omega

/-- How many beats a schedule has left. -/
def Schedule.beatsLeft (s : Schedule R) : Nat := beatsOf s.tasks

theorem Schedule.beatsLeft_le (s : Schedule R) : s.beatsLeft ≤ 2 * s.tasks.length := by
  unfold beatsLeft
  induction s.tasks with
  | nil => simp [beatsOf]
  | cons task rest ih =>
    simp only [beatsOf, List.length_cons]
    omega

/-- Every beat uses one up. -/
theorem Beat.beatsLeft [Scalar R] {now : Time} {v v' : Vehicle R} {pool pool' : ChargerPool R}
    {event : TaskEvent R} (h : Beat now v pool event v' pool') :
    v'.schedule.beatsLeft + 1 = v.schedule.beatsLeft := by
  obtain ⟨before, after, task, task', htasks, -, hbecomes, -, hvehicle, -, -⟩ := h
  have hrank : 2 - task'.status.rank + 1 = 2 - task.status.rank := by
    rw [hbecomes.status]
    cases hphase : event.phase with
    | started =>
      rw [hphase] at hbecomes
      rw [hbecomes.was_planned]
      rfl
    | ended =>
      rw [hphase] at hbecomes
      rw [hbecomes.was_started]
      rfl
  simp only [Schedule.beatsLeft, htasks, hvehicle.tasks, beatsOf_append, beatsOf]
  omega

/-- A schedule without beats left is over. -/
theorem Schedule.performed_of_beatsLeft {s : Schedule R} (h : s.beatsLeft = 0) :
    ∀ task ∈ s.tasks, task.status = .performed := by
  intro task htask
  obtain ⟨before, after, hsplit⟩ := List.append_of_mem htask
  simp only [beatsLeft, hsplit, beatsOf_append, beatsOf] at h
  cases hstatus : task.status with
  | performed => rfl
  | planned | started => simp [hstatus, TaskStatus.rank] at h

theorem Schedule.settled_of_beatsLeft {s : Schedule R} (h : s.beatsLeft = 0) (now : Time) :
    s.Settled now :=
  fun task htask hopen => (hopen (performed_of_beatsLeft h task htask)).elim

/-- A property of vehicles, chargers and an account of the events that every beat preserves. -/
structure Steady [Scalar R] {ε γ : Type} (now : Time) (note : γ → TaskEvent R → Except ε γ)
    (I : List (Vehicle R) → ChargerPool R → γ → Prop) : Prop where
  /-- No beat can fail. -/
  ready : ∀ {vs pool account}, I vs pool account →
    ∀ v ∈ vs, v.schedule.InSequence ∧ v.schedule.Supplied pool
  /-- What a beat tells can be noted, and the property holds again. -/
  beat : ∀ {a v b pool account event v' pool'}, I (a ++ v :: b) pool account →
    Beat now v pool event v' pool' →
    ∃ account', note account event = .ok account' ∧ I (a ++ v' :: b) pool' account'

variable [Scalar R] {ε γ : Type} {now : Time} {note : γ → TaskEvent R → Except ε γ}
  {I : List (Vehicle R) → ChargerPool R → γ → Prop}

namespace VehicleState

/-- With enough rounds, a vehicle is brought up to an instant. -/
theorem advanceUpTo_ends (h : Steady now note I) {a b : List (Vehicle R)} {account : γ}
    {state : VehicleState R} {bound : Nat} (hI : I (a ++ state.vehicle :: b) state.chargers account)
    (hbound : state.vehicle.schedule.beatsLeft ≤ bound) :
    (advanceUpTo now bound).Ends state
      (fun events state' => state'.vehicle.schedule.Settled now ∧ ∃ account',
        events.foldlM note account = .ok account' ∧
          I (a ++ state'.vehicle :: b) state'.chargers account')
      fun _ _ => False := by
  induction bound generalizing state account with
  | zero =>
    exact ⟨Schedule.settled_of_beatsLeft (by omega) now, account, rfl, hI⟩
  | succ bound ih =>
    obtain ⟨hsequence, hsupplied⟩ := h.ready hI state.vehicle (by simp)
    rw [advanceUpTo, Action.ends_bind]
    refine (advanceOnce_ends hsequence hsupplied).mono ?_ fun _ _ h => h
    rintro (_ | event) mid hmid
    · obtain ⟨rfl, hsettled⟩ := hmid
      exact ⟨hsettled, account, rfl, hI⟩
    · obtain ⟨account', hnote, hI'⟩ := h.beat hI hmid
      have hleft := hmid.beatsLeft
      simp only [Action.ends_bind, Action.ends_pure]
      refine (ih hI' (by omega)).mono ?_ fun _ _ h => h
      rintro later last ⟨hsettled, account'', hlater, hI''⟩
      refine ⟨hsettled, account'', ?_, hI''⟩
      simp [List.foldlM_cons, hnote, bind, Except.bind, hlater]

/-- A vehicle is brought up to an instant. -/
theorem advance_ends (h : Steady now note I) {a b : List (Vehicle R)} {account : γ}
    {state : VehicleState R} (hI : I (a ++ state.vehicle :: b) state.chargers account) :
    (advance now).Ends state
      (fun events state' => state'.vehicle.schedule.Settled now ∧ ∃ account',
        events.foldlM note account = .ok account' ∧
          I (a ++ state'.vehicle :: b) state'.chargers account')
      fun _ _ => False := by
  simp only [advance, Action.ends_bind, Action.ends_get]
  exact advanceUpTo_ends h hI (Schedule.beatsLeft_le _)

end VehicleState

namespace FleetState

/-- Vehicles are brought up to an instant one after the other. -/
theorem advanceEach_eq (h : Steady now note I) {a : List (Vehicle R)} {account : γ}
    {pairs : List (Vehicle R × Movement)} {pool : ChargerPool R}
    (hI : I (a ++ pairs.map Prod.fst) pool account) :
    ∃ (told : List (List (TaskEvent R))) (others : List (Vehicle R × Movement))
      (pool' : ChargerPool R) (account' : γ),
      advanceEach now pairs pool = (told.map Except.ok, others, pool') ∧
      others.length = pairs.length ∧ (∀ v ∈ others.map Prod.fst, v.schedule.Settled now) ∧
      told.flatten.foldlM note account = .ok account' ∧
      I (a ++ others.map Prod.fst) pool' account' := by
  induction pairs generalizing a pool account with
  | nil => exact ⟨[], [], pool, account, rfl, rfl, by simp, rfl, hI⟩
  | cons pair rest ih =>
    obtain ⟨v, movement⟩ := pair
    have hends := @VehicleState.advance_ends R _ ε γ now note I h a _ account ⟨v, movement, pool⟩ hI
    obtain ⟨events, state, hrun, hsettled, mid, hmid, hI'⟩ := hends.exists_ok
    have hnext : I ((a ++ [state.vehicle]) ++ rest.map Prod.fst) state.chargers mid := by
      simpa using hI'
    obtain ⟨told, others, pool', account', heq, hlength, hothers, hlater, hlast⟩ := ih hnext
    refine ⟨events :: told, (state.vehicle, state.movement) :: others, pool', account', ?_,
      by simp [hlength], ?_, ?_, by simpa using hlast⟩
    · simp [advanceEach, Action.outcome, hrun, heq]
    · simpa using ⟨hsettled, by simpa using hothers⟩
    · rw [List.flatten_cons, List.foldlM_append, hmid]
      exact hlater

omit [Scalar R] in
theorem mapM_ok {told : List (List (TaskEvent R))} :
    (told.map (Except.ok (ε := ExecutionError R))).mapM id = .ok told := by
  induction told with
  | nil => rfl
  | cons events rest ih => simp [List.mapM_cons, ih, bind, Except.bind, pure, Except.pure]

/-- Bringing up the fleet is bringing up its vehicles in the order of their numbers. -/
theorem advance_eq {state : FleetState R} {told : List (List (TaskEvent R))}
    {others : List (Vehicle R × Movement)} {pool : ChargerPool R}
    (hmovements : state.movements.length = state.fleet.size)
    (heach : advanceEach now (state.fleet.vehicles.zip state.movements) state.chargers =
      (told.map Except.ok, others, pool)) :
    advance now state =
      .ok told.flatten ⟨⟨others.map Prod.fst⟩, others.map Prod.snd, pool⟩ := by
  have hends : (advance now).Ends state (fun events state' =>
      events = told.flatten ∧ state' = ⟨⟨others.map Prod.fst⟩, others.map Prod.snd, pool⟩)
      fun _ _ => False := by
    simp only [advance, Action.ends_bind, Action.ends_get, hmovements, ne_eq, not_true_eq_false,
      if_false, Action.ends_pure, heach, Action.ends_set, mapM_ok, and_self]
  obtain ⟨_, _, hrun, rfl, rfl⟩ := hends.exists_ok
  exact hrun

/-- All vehicles are brought up to an instant. -/
theorem advance_ends (h : Steady now note I) {account : γ} {state : FleetState R}
    (hmovements : state.movements.length = state.fleet.size)
    (hI : I state.fleet.vehicles state.chargers account) :
    (advance now).Ends state
      (fun events state' => state'.movements.length = state'.fleet.size ∧
        (∀ v ∈ state'.fleet.vehicles, v.schedule.Settled now) ∧ ∃ account',
          events.foldlM note account = .ok account' ∧
            I state'.fleet.vehicles state'.chargers account')
      fun _ _ => False := by
  have hzip : (state.fleet.vehicles.zip state.movements).map Prod.fst = state.fleet.vehicles :=
    List.map_fst_zip (Nat.le_of_eq hmovements.symm)
  have hI' : I ([] ++ (state.fleet.vehicles.zip state.movements).map Prod.fst) state.chargers
      account := by simpa [hzip] using hI
  obtain ⟨told, others, pool, account', heq, -, hsettled, hnoted, hlast⟩ := advanceEach_eq h hI'
  refine Action.ends_of_run (advance_eq hmovements heq) ⟨?_, hsettled, account', hnoted, hlast⟩
  simp [Fleet.size]

end FleetState

end DemandTransport
