import DemandTransport.Proofs.Execution.Docking

/-!
# Planning between steps

Between the steps of execution, schedules are planned anew: work is put in, idle time is split, and
work is given back or turned into idle time. None of this touches a charging task that is being
executed, and every charging task that is put in is a planned one. So, from any fleet with nothing
but planned tasks and from free chargers on, plugs always go with sessions, whatever is planned and
at whatever times the steps are made.
-/

namespace DemandTransport

variable {R : Type}

/-! ## One schedule -/

namespace Edit

/-- A call that plans: it does not execute tasks or set their energy, and charging tasks that it
puts in are at chargers of the pool. -/
def Plans (pool : ChargerPool R) : Edit R → Prop
  | insert task _ => ∀ charger, task.kind = .charge charger → (pool.find? charger).isSome
  | splitStayAt _ | insertionPoint _ | retractFrom .. | vacate _ => True
  | advance .. | overrideEnergy .. => False

/-- The task that a call puts in. -/
def inserted? : Edit R → Option (Task R)
  | insert task _ => some task
  | _ => none

/-- A call that plans does so for any pool with the same chargers. -/
theorem Plans.keeps {pool pool' : ChargerPool R} {edit : Edit R} (h : edit.Plans pool)
    (hkeeps : pool.Keeps pool') : edit.Plans pool' := by
  cases edit with
  | insert task index => exact fun charger hkind => (hkeeps.known charger).mpr (h charger hkind)
  | _ => exact h

/-- A charging task that a call puts in is at a charger of the pool. -/
theorem Plans.known {pool : ChargerPool R} {edit : Edit R} {task : Task R} (h : edit.Plans pool)
    (hinserted : edit.inserted? = some task) (charger : ChargerId)
    (hkind : task.kind = .charge charger) : (pool.find? charger).isSome := by
  cases edit with
  | insert other index =>
    obtain rfl := Option.some.inj hinserted
    exact h charger hkind
  | _ => cases hinserted

variable [Scalar R]

/-- What planning does to a schedule. -/
inductive Replans (edit : Edit R) (s s' : Schedule R) : Prop where
  /-- It finds that nothing need be done. -/
  | nothing (same : s' = s)
  /-- Planned tasks give way to others, which are idle time but for a task that is put in. -/
  | work (before old new after : List (Task R)) (tasks : s.tasks = before ++ old ++ after)
    (tasks' : s'.tasks = before ++ new ++ after)
    (waiting : ∀ task ∈ old, task.status = .planned) (fresh : ∀ task ∈ new, task.status = .planned)
    (idle : ∀ task ∈ new, edit.inserted? = some task ∨ task.isStay = true)
  /-- Idle time, which may have been begun, is cut in two. -/
  | cut (before after : List (Task R)) (stay : Task R) (t : Time) (splits : Schedule.Splits stay t)
    (tasks : s.tasks = before ++ [stay] ++ after)
    (tasks' : s'.tasks = before ++ [stay.headUntil t, stay.tailFrom t] ++ after)

variable {s s' : Schedule R} {edit : Edit R}

/-- A task is put in the place of planned idle time, some of which may be left beside it. -/
theorem replans_of_insert {task : Task R} {index given : Nat}
    (h : s.insert task index = .ok (given, s')) : (insert task index).Replans s s' := by
  obtain ⟨before, stay, after, htasks, -, hcarves, -, rfl⟩ := Schedule.insert_ok h
  have hrest : ∀ other ∈ Schedule.remainder stay task,
      other.status = .planned ∧ other.isStay = true := by
    intro other hother
    obtain ⟨hidle, hstatus⟩ := Schedule.of_mem_remainder hother
    exact ⟨hstatus.trans hcarves.waiting, hidle⟩
  refine .work before [stay] _ after (by simp [htasks]) rfl (by simp [hcarves.waiting])
    (fun other hother => ?_) fun other hother => ?_
  · rcases List.mem_cons.mp hother with rfl | hother
    · exact hcarves.fresh
    · exact (hrest other hother).1
  · rcases List.mem_cons.mp hother with rfl | hother
    · exact .inl rfl
    · exact .inr (hrest other hother).2

/-- Splitting cuts the idle time of an instant. -/
theorem replans_of_splitStayAt {t : Time} {parts : Nat × Nat} (hs : s.InSequence)
    (h : s.splitStayAt t = .ok (parts, s')) : edit.Replans s s' := by
  obtain ⟨index, stay, hcurrent, hsplits, -, rfl⟩ := Schedule.splitStayAt_ok h
  obtain ⟨before, after, htasks, rfl, -⟩ := hs.current_ok hcurrent
  refine .cut before after stay t hsplits (by simp [htasks]) ?_
  rw [Schedule.eq_of_tasks htasks, Schedule.splice_append]

/-- Planned tasks that are given back give way to idle time. -/
theorem replans_of_retractFrom {index : Nat} {energy : Option R}
    (h : s.retractFrom index energy = .ok s') : edit.Replans s s' := by
  obtain ⟨before, first, after, htasks, -, hplanned, rfl⟩ := Schedule.retractFrom_ok h
  refine .work before (first :: after) _ [] (by simp [htasks]) (List.append_nil _).symm hplanned
    (fun task htask => ?_) fun task htask => ?_
  · rw [List.mem_singleton.mp htask]
    rfl
  · rw [List.mem_singleton.mp htask]
    exact .inr rfl

theorem replans_of_vacate {index : Nat} (h : s.vacate index = .ok s') : edit.Replans s s' := by
  obtain ⟨before, task, after, htasks, -, hplanned, -, rfl⟩ := Schedule.vacate_ok h
  refine .work before [task] _ after (by simp [htasks]) (List.append_cons ..) (by simp [hplanned])
    (fun other hother => ?_) fun other hother => ?_
  · rw [List.mem_singleton.mp hother]
    exact hplanned
  · rw [List.mem_singleton.mp hother]
    exact .inr rfl

/-- A call that plans does one of these, if it is made. -/
theorem Makes.replans {pool : ChargerPool R} (hs : s.InSequence) (h : edit.Plans pool)
    (hmakes : Makes s s' edit) : edit.Replans s s' := by
  cases hmakes with
  | insert hinsert => exact replans_of_insert hinsert
  | splitStayAt hsplit => exact replans_of_splitStayAt hs hsplit
  | insertionPoint hpoint =>
    rcases Schedule.insertionPoint_ok hpoint with ⟨-, -, -, -, -, hsame⟩ | ⟨first, hsplit⟩
    · exact .nothing hsame
    · exact replans_of_splitStayAt hs hsplit
  | retractFrom hretract => exact replans_of_retractFrom hretract
  | vacate hvacate => exact replans_of_vacate hvacate
  | advance _ | overrideEnergy _ => exact h.elim

end Edit

/-- A schedule with the same charging tasks being executed, and charging tasks only that were there
or that are planned at chargers of the pool. -/
structure Schedule.Rearranged (pool : ChargerPool R) (s s' : Schedule R) : Prop where
  kept : ∀ task ∈ s.tasks, ∀ charger, task.ChargesAt charger → task ∈ s'.tasks
  added : ∀ task ∈ s'.tasks, ∀ charger, task.kind = .charge charger →
    task ∈ s.tasks ∨ task.status = .planned ∧ (pool.find? charger).isSome

namespace Schedule.Rearranged

variable {pool : ChargerPool R} {s s' : Schedule R}

theorem refl (s : Schedule R) : s.Rearranged pool s :=
  ⟨fun _ htask _ _ => htask, fun _ htask _ _ => .inl htask⟩

/-- Tasks that do not charge now give way to others, of which those that charge are planned. -/
theorem of_replace (before old : List (Task R)) {new : List (Task R)} (after : List (Task R))
    (hs : s.tasks = before ++ old ++ after) (hs' : s'.tasks = before ++ new ++ after)
    (hold : ∀ task ∈ old, ∀ charger, ¬task.ChargesAt charger)
    (hnew : ∀ task ∈ new, ∀ charger, task.kind = .charge charger →
      task.status = .planned ∧ (pool.find? charger).isSome) : s.Rearranged pool s' := by
  constructor
  · intro task htask charger hcharges
    have hout : task ∉ old := fun hin => hold task hin charger hcharges
    simp only [hs, hs', List.mem_append] at htask ⊢
    tauto
  · intro task htask charger hkind
    simp only [hs, hs', List.mem_append] at htask ⊢
    rcases htask with (hbefore | hin) | hafter
    · exact .inl (.inl (.inl hbefore))
    · exact .inr (hnew task hin charger hkind)
    · exact .inl (.inr hafter)

/-- So does planning. -/
theorem of_replans [Scalar R] {edit : Edit R} (h : edit.Replans s s') (hplans : edit.Plans pool) :
    s.Rearranged pool s' := by
  cases h with
  | nothing same =>
    subst same
    exact .refl s'
  | work before old new after htasks htasks' hwaiting hfresh hidle =>
    refine of_replace before old after htasks htasks' (fun task htask charger hcharges => ?_)
      fun task htask charger hkind => ⟨hfresh task htask, ?_⟩
    · rw [Task.ChargesAt, hwaiting task htask] at hcharges
      exact TaskStatus.noConfusion hcharges.1
    · rcases hidle task htask with hinserted | hstay
      · exact hplans.known hinserted charger hkind
      · simp [Task.isStay, TaskKind.isStay, hkind] at hstay
  | cut before after stay t hsplits htasks htasks' =>
    obtain ⟨docked, hidle⟩ := Task.kind_of_isStay hsplits.idle
    refine of_replace before [stay] after htasks htasks' (fun task htask charger hcharges => ?_)
      fun task htask charger hkind => ?_
    · rw [List.mem_singleton.mp htask, Task.ChargesAt, hidle] at hcharges
      simp at hcharges
    · have hsame : task.kind = stay.kind := by
        rcases List.mem_pair.mp htask with rfl | rfl <;> rfl
      simp [hsame, hidle] at hkind

theorem supplied (h : s.Rearranged pool s') (hs : s.Supplied pool) : s'.Supplied pool := by
  intro task htask hopen charger hkind
  rcases h.added task htask charger hkind with hold | ⟨-, hknown⟩
  · exact hs task hold hopen charger hkind
  · exact hknown

end Schedule.Rearranged

/-! ## The fleet between steps -/

variable [Scalar R] {pool : ChargerPool R} {v : Vehicle R} {edit : Edit R}

/-- A vehicle whose schedule has been planned anew. -/
def Vehicle.replan (v : Vehicle R) (edit : Edit R) : Vehicle R :=
  { v with schedule := (edit.perform.outcome v.schedule).2 }

/-- Planning a vehicle anew is planning its schedule anew, if it is not refused. -/
theorem Vehicle.replans (h : v.schedule.InSequence) (hplans : edit.Plans pool) :
    edit.Replans v.schedule (v.replan edit).schedule := by
  refine Action.Ends.outcome (P := fun s' => edit.Replans v.schedule s')
    ((edit.perform_ends v.schedule).mono (fun _ _ hmakes => hmakes.replans h hplans) ?_)
  rintro - s' rfl
  exact .nothing rfl

/-- A vehicle that is planned anew holds the same plugs for the same sessions. -/
theorem Vehicle.Docked.replan (h : v.Docked pool) (hplans : edit.Plans pool) :
    (v.replan edit).Docked pool := by
  have hordered : (v.replan edit).schedule.InSequence := (h.ordered.performAll [edit]).1
  have hrearranged := Schedule.Rearranged.of_replans (v.replans h.ordered hplans) hplans
  refine ⟨hordered, hrearranged.supplied h.supplied, fun charger hin => ?_,
    fun task htask charger hcharges => ?_⟩
  · obtain ⟨task, htask, hcharges⟩ := h.held charger hin
    exact ⟨task, hrearranged.kept task htask charger hcharges, hcharges⟩
  · rcases hrearranged.added task htask charger hcharges.2 with hold | ⟨hplanned, -⟩
    · exact h.forfeited task hold charger hcharges
    · simp [Task.ChargesAt, hplanned] at hcharges

namespace FleetState

/-- A call between and during which the vehicles of a run change. -/
inductive Call (R : Type) where
  /-- All vehicles are brought up to an instant. -/
  | step (now : Time)
  /-- The schedule of a vehicle is planned anew. -/
  | replan (vehicle : VehicleId) (edit : Edit R)

namespace Call

/-- The state that a call leaves, whatever it answers. -/
def after : Call R → FleetState R → FleetState R
  | step now, state => ((advance now).outcome state).2
  | replan id edit, state =>
    match state.fleet.get id with
    | .ok v => { state with fleet := state.fleet.set id (v.replan edit) }
    | .error _ => state

/-- The state after some calls, each made on what the one before it left. -/
def performAll (calls : List (Call R)) (state : FleetState R) : FleetState R :=
  calls.foldl (fun state call => call.after state) state

/-- A call that executes at any instant, or that plans. -/
def Plans (pool : ChargerPool R) : Call R → Prop
  | step _ => True
  | replan _ edit => edit.Plans pool

variable {state : FleetState R} {call : Call R}

omit [Scalar R] in
theorem Plans.keeps {pool pool' : ChargerPool R} (h : call.Plans pool)
    (hkeeps : pool.Keeps pool') : call.Plans pool' := by
  cases call with
  | step now => trivial
  | replan id edit => exact Edit.Plans.keeps h hkeeps

/-- A call keeps the plugs with the sessions. -/
theorem after_docked (h : Docked state.fleet.vehicles state.chargers)
    (hplans : call.Plans state.chargers) :
    Docked (call.after state).fleet.vehicles (call.after state).chargers ∧
      state.chargers.Keeps (call.after state).chargers := by
  cases call with
  | step now =>
    by_cases hmovements : state.movements.length = state.fleet.size
    · have hends := @FleetState.advance_ends R _ Empty Unit now _ _
        (Docked.steady now state.chargers) () state hmovements ⟨h, .refl _⟩
      refine Action.Ends.outcome (P := fun t => Docked t.fleet.vehicles t.chargers ∧
        state.chargers.Keeps t.chargers) (hends.mono ?_ fun _ _ hs => hs.elim)
      rintro - t ⟨-, -, -, -, hs⟩
      exact hs
    · have hends : (advance now).Ends state (fun _ t => t = state) fun _ t => t = state := by
        simp only [advance, Action.ends_bind, Action.ends_get, ne_eq, hmovements,
          not_false_eq_true, if_true, Action.ends_throw]
      rw [after, hends.outcome (P := fun t => t = state)]
      exact ⟨h, .refl _⟩
  | replan id edit =>
    rw [after]
    cases hget : state.fleet.get id with
    | error e => exact ⟨h, .refl _⟩
    | ok v =>
      obtain ⟨a, b, hsplit, hlength⟩ := Fleet.get_ok hget
      rw [hsplit] at h
      dsimp only
      rw [Fleet.set_split hsplit hlength]
      exact ⟨h.replace rfl (.refl _) h.orderly ((h.docked v (by simp)).replan hplans)
        fun _ _ _ => Iff.rfl, .refl _⟩

/-- So do any number of calls. -/
theorem performAll_docked {calls : List (Call R)}
    (h : Docked state.fleet.vehicles state.chargers)
    (hplans : ∀ call ∈ calls, call.Plans state.chargers) :
    Docked (performAll calls state).fleet.vehicles (performAll calls state).chargers ∧
      state.chargers.Keeps (performAll calls state).chargers := by
  induction calls generalizing state with
  | nil => exact ⟨h, .refl _⟩
  | cons call rest ih =>
    obtain ⟨hnext, hkeeps⟩ := after_docked h (hplans call List.mem_cons_self)
    obtain ⟨hlast, hkeeps'⟩ := ih hnext fun other hother =>
      Plans.keeps (hplans other (List.mem_cons_of_mem _ hother)) hkeeps
    exact ⟨hlast, hkeeps.trans hkeeps'⟩

end Call

/-- From planned tasks and free chargers on, with steps at any instants and any planning between
them, no vehicle holds two plugs of a charger, no more plugs are held than there are, only the
vehicle whose started task charges there holds one, and a vehicle whose started task charges without
a plug has given up the energy of that task. -/
theorem plugs_held_by_sessions {state : FleetState R} (hnumbered : Numbered state.fleet.vehicles)
    (hvalid : ∀ v ∈ state.fleet.vehicles, v.schedule.validate = .ok ())
    (hplanned : ∀ v ∈ state.fleet.vehicles, ∀ task ∈ v.schedule.tasks, task.status = .planned)
    (hsupplied : ∀ v ∈ state.fleet.vehicles, v.schedule.Supplied state.chargers)
    (hunused : state.chargers.Unused) {calls : List (Call R)}
    (hcalls : ∀ call ∈ calls, call.Plans state.chargers) (charger : ChargerId) :
    let later := Call.performAll calls state
    (later.chargers.plugged charger).Nodup ∧
      (later.chargers.plugged charger).length ≤ state.chargers.plugs charger ∧
      (∀ id ∈ later.chargers.plugged charger, ∃ v ∈ later.fleet.vehicles, v.id = id ∧
        ∃ task, v.schedule.tasks.filter (fun other => other.status = .started) = [task] ∧
          task.kind = .charge charger) ∧
      ∀ v ∈ later.fleet.vehicles, ∀ task ∈ v.schedule.tasks, task.status = .started →
        task.kind = .charge charger → v.id ∉ later.chargers.plugged charger →
          task.energy = some 0.0 := by
  intro later
  have hstart : Docked state.fleet.vehicles state.chargers := by
    refine ⟨hnumbered.nodup, fun c => by simp [hunused.plugged], by simp [hunused.plugged],
      fun v hv => ⟨(Schedule.validate_eq_ok_iff.mp (hvalid v hv)).inSequence, hsupplied v hv,
        by simp [hunused.plugged], fun task htask c hcharges => ?_⟩⟩
    simp [Task.ChargesAt, hplanned v hv task htask] at hcharges
  obtain ⟨hlater, hkeeps⟩ := Call.performAll_docked hstart hcalls
  refine ⟨(hlater.orderly charger).1, hkeeps.plugs charger ▸ (hlater.orderly charger).2,
    fun id hin => ?_, fun v hv task htask hstarted hkind hout => ?_⟩
  · obtain ⟨v, hv, rfl⟩ := List.mem_map.mp (hlater.known charger id hin)
    obtain ⟨task, htask, hstarted, hkind⟩ := (hlater.docked v hv).held charger hin
    exact ⟨v, hv, rfl, task,
      (hlater.docked v hv).ordered.filter_started htask hstarted, hkind⟩
  · exact ((hlater.docked v hv).forfeited task htask charger ⟨hstarted, hkind⟩).resolve_left hout

/-- Two vehicles want the one plug. The second one is late and gives its session up; another session
is planned for it after that of the first one, and for this it gets the plug. -/
theorem plugs_held_by_sessions_one_plug :
    let session (start finish : Nat) : Task Rat :=
      (Task.charge ⟨7⟩ ⟨0⟩ (.ofSecs start) (.ofSecs finish)).withEnergy 5
    let vehicle (id free : Nat) : Vehicle Rat :=
      ⟨⟨id⟩, ⟨0⟩, .zero, .ofSecs 100, 4, none,
        ⟨[session 0 free, Task.stay ⟨0⟩ (.ofSecs free) (.ofSecs 100)]⟩⟩
    let fleet : Fleet Rat := ⟨[vehicle 0 40, vehicle 1 30]⟩
    let state : FleetState Rat := ⟨fleet, Movement.ofFleet fleet, ⟨[⟨⟨7⟩, ⟨0⟩, 50, 1, []⟩]⟩⟩
    let calls : List (Call Rat) :=
      [.step (.ofSecs 10), .replan ⟨1⟩ (.splitStayAt (.ofSecs 40)),
        .replan ⟨1⟩ (.insert (session 40 60) 2), .step (.ofSecs 45)]
    let early := Call.performAll (calls.take 1) state
    Numbered state.fleet.vehicles ∧ state.chargers.Unused ∧
      early.chargers.plugged ⟨7⟩ = [⟨0⟩] ∧
      (early.fleet.vehicles.map fun v => v.schedule.tasks.map Task.energy) =
        [[some 5, none], [some 0, none]] ∧
      (Call.performAll calls state).chargers.plugged ⟨7⟩ = [⟨1⟩] ∧
      ∃ v ∈ (Call.performAll calls state).fleet.vehicles, v.id = ⟨1⟩ ∧
        ∃ task, v.schedule.tasks.filter (fun other => other.status = .started) = [task] ∧
          task.kind = .charge ⟨7⟩ := by
  intro session vehicle fleet state calls early
  have hnumbered : Numbered state.fleet.vehicles := by
    unfold Numbered
    decide
  have hunused : state.chargers.Unused := ⟨by unfold ChargerPool.Distinct; decide, by simp [state]⟩
  have hvalid : ∀ v ∈ state.fleet.vehicles, v.schedule.validate = .ok () := by decide
  have hplanned : ∀ v ∈ state.fleet.vehicles, ∀ task ∈ v.schedule.tasks,
      task.status = .planned := by decide
  have hsupplied : ∀ v ∈ state.fleet.vehicles, v.schedule.Supplied state.chargers := by
    simp [state, fleet, vehicle, session, Schedule.Supplied, Task.charge, Task.stay,
      Task.withEnergy, ChargerPool.find?]
  have hcalls : ∀ call ∈ calls, call.Plans state.chargers := by
    simp [calls, Call.Plans, Edit.Plans, session, Task.charge, Task.withEnergy, state,
      ChargerPool.find?]
  have hlater := plugs_held_by_sessions hnumbered hvalid hplanned hsupplied hunused hcalls ⟨7⟩
  have hplugged : (Call.performAll calls state).chargers.plugged ⟨7⟩ = [⟨1⟩] := by decide +kernel
  have hheld : (⟨1⟩ : VehicleId) ∈ (Call.performAll calls state).chargers.plugged ⟨7⟩ :=
    hplugged ▸ List.mem_singleton_self _
  have hearly : early.chargers.plugged ⟨7⟩ = [⟨0⟩] := by decide +kernel
  have henergy : (early.fleet.vehicles.map fun v => v.schedule.tasks.map Task.energy) =
      [[some 5, none], [some 0, none]] := by decide +kernel
  have hlast := hlater.2.2.1 ⟨1⟩ hheld
  exact ⟨hnumbered, hunused, hearly, henergy, hplugged, hlast⟩

end FleetState

end DemandTransport
