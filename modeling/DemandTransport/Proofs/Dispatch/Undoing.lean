import DemandTransport.Proofs.Dispatch.Lifetime

/-!
# Undoing a plan

A plan that is taken back as soon as it has been carried out leaves the vehicle with what it did
before. Its schedule may be cut differently: idle time that had been begun stays cut where the plan
began. Apart from that nothing can be told from before, neither what the vehicle does at any instant
nor which idle time is open for new work.
-/

namespace DemandTransport

variable {R : Type}

/-! ## What a vehicle does at an instant -/

/-- What a vehicle does at an instant. It does not matter how idle time is cut, nor whether the
vehicle is docked in it. -/
inductive Occupation (R : Type) where
  /-- The vehicle is idle at a node. -/
  | idle (node : NodeId)
  /-- It works on a task. -/
  | work (task : Task R)

/-- What a vehicle does during a task. -/
def Task.occupation (task : Task R) : Occupation R :=
  if task.isStay then .idle task.target else .work task

namespace Schedule

/-- What a vehicle does at an instant of its horizon. -/
def occupation? (s : Schedule R) (t : Time) : Option (Occupation R) :=
  (s.current t).toOption.map fun (_, task) => task.occupation

variable {before rest rest' : List (Task R)} {start finish t : Time}

theorem Valid.occupation?_eq {after : List (Task R)} {task : Task R}
    (h : Valid ⟨before ++ task :: after⟩) (hcovers : task.Covers t) :
    occupation? ⟨before ++ task :: after⟩ t = some task.occupation := by
  simp [occupation?, h.current_eq hcovers, Except.toOption]

/-- At an instant of the horizon a vehicle works through the front of its schedule or does one of
the tasks behind. -/
theorem ValidOver.occupied (h : ValidOver ⟨before ++ rest⟩ start finish) (hstart : start ≤ t)
    (hfinish : t < finish) :
    (∃ a task b, before = a ++ task :: b ∧ task.Covers t) ∨
      ∃ task ∈ rest, occupation? ⟨before ++ rest⟩ t = some task.occupation := by
  rw [← h.begins] at hstart
  rw [← h.ends] at hfinish
  obtain ⟨a, task, b, htasks, hcovers, -⟩ := h.exists_current hstart hfinish
  have hoccupied : occupation? ⟨before ++ rest⟩ t = some task.occupation := by
    have hvalid := h.toValid
    rw [show before ++ rest = a ++ task :: b from htasks] at hvalid ⊢
    exact hvalid.occupation?_eq hcovers
  rcases List.append_eq_append_iff.mp htasks with ⟨front, -, hrest⟩ | ⟨back, hbefore, hback⟩
  · exact .inr ⟨task, by simp [hrest], hoccupied⟩
  · cases back with
    | nil =>
      rw [List.nil_append] at hback
      exact .inr ⟨task, by simp [← hback], hoccupied⟩
    | cons first back =>
      obtain rfl : task = first := by simpa using congrArg List.head? hback
      exact .inl ⟨a, task, back, hbefore, hcovers⟩

/-- It does not matter how idle time at the end of a schedule is cut. -/
theorem ValidOver.occupation?_recut {node : NodeId}
    (h : ValidOver ⟨before ++ rest⟩ start finish) (h' : ValidOver ⟨before ++ rest'⟩ start finish)
    (hidle : ∀ task ∈ rest ++ rest', task.isStay = true ∧ task.target = node)
    (hstart : start ≤ t) (hfinish : t < finish) :
    ∃ occupation, occupation? ⟨before ++ rest⟩ t = some occupation ∧
      occupation? ⟨before ++ rest'⟩ t = some occupation := by
  have hfront {rest : List (Task R)} (h : Valid ⟨before ++ rest⟩) {a b : List (Task R)}
      {task : Task R} (hbefore : before = a ++ task :: b) (hcovers : task.Covers t) :
      occupation? ⟨before ++ rest⟩ t = some task.occupation := by
    subst hbefore
    rw [List.append_assoc, List.cons_append] at h ⊢
    exact h.occupation?_eq hcovers
  have hback {task : Task R} (htask : task ∈ rest ++ rest') :
      task.occupation = .idle node := by
    obtain ⟨hstay, hnode⟩ := hidle task htask
    simp [Task.occupation, hstay, hnode]
  rcases h.occupied hstart hfinish with ⟨a, task, b, hbefore, hcovers⟩ | ⟨task, htask, hdoes⟩
  · exact ⟨_, hfront h.toValid hbefore hcovers, hfront h'.toValid hbefore hcovers⟩
  rcases h'.occupied hstart hfinish with ⟨a, task', b, hbefore, hcovers⟩ | ⟨task', htask', hdoes'⟩
  · exact ⟨_, hfront h.toValid hbefore hcovers, hfront h'.toValid hbefore hcovers⟩
  · rw [hback (by simp [htask])] at hdoes
    rw [hback (by simp [htask'])] at hdoes'
    exact ⟨_, hdoes, hdoes'⟩

end Schedule

/-! ## Which idle time is open -/

namespace Vehicle

variable {v v' v'' : Vehicle R} {before : List (Task R)} {stay : Task R} {now : Time}

/-- When work can begin in idle time at the end of a schedule. -/
def opening (stay : Task R) (now : Time) : Time :=
  if stay.status = .started ∧ max stay.start now = stay.start then (max stay.start now).offset 1
  else max stay.start now

/-- The idle time at the end of a schedule is open until its end, if it is not over. -/
theorem openSlot?_eq (htasks : v.schedule.tasks = before ++ [stay]) (hidle : stay.isStay = true) :
    v.openSlot? now =
      if stay.status = .performed then none
      else if opening stay now < stay.finish then
        some ⟨stay.target, opening stay now, stay.finish⟩
      else none := by
  simp only [openSlot?, Schedule.trailingStay?, available, htasks, List.getLast?_concat, hidle,
    if_true]
  rfl

/-- Idle time that has been begun is open from the second behind its begin on. -/
theorem secs_opening (hbegun : stay.status = .started) :
    (opening stay now).secs = min (max (stay.start.secs + 1) now.secs) wordLimit := by
  have hnow := now.secs_le
  have hmax := Time.secs_max stay.start now
  unfold opening
  split
  · simp only [Time.secs_offset, Time.eq_iff, hmax] at *
    omega
  next hlater =>
    have hne : (max stay.start now).secs ≠ stay.start.secs := fun heq =>
      hlater ⟨hbegun, Time.eq_iff.mpr heq⟩
    omega

/-- Idle time opens as before when it is not cut, or when it has been begun and is cut where it
opened before. -/
theorem opening_recut {idle : Task R} {later : Time} (hwaiting : idle.status = .planned)
    (hstart : idle.start = if stay.status = .started then opening stay now else stay.start)
    (hlater : now ≤ later) : opening idle later = opening stay later := by
  have hplanned : opening idle later = max idle.start later := by simp [opening, hwaiting]
  rw [hplanned, hstart]
  by_cases hbegun : stay.status = .started
  · have hlast := later.secs_le
    rw [if_pos hbegun, Time.eq_iff, Time.secs_max, secs_opening hbegun, secs_opening hbegun]
    simp only [Time.le_iff] at hlater
    omega
  · simp [opening, hbegun]

/-! ## Giving a plan back -/

/-- What only leads up to work belongs to the approach to it. -/
theorem rdropWhile_append_approach {approach : List (Task R)}
    (happroach : ∀ task ∈ approach, isApproach task = true) :
    (before ++ approach).rdropWhile isApproach = before.rdropWhile isApproach := by
  have hreverse : ∀ task ∈ approach.reverse, isApproach task = true := by simpa using happroach
  rw [List.rdropWhile, List.reverse_append, List.dropWhile_append_of_pos hreverse]
  rfl

/-- The approach to work reaches back as far as to other work or to what has been begun. -/
theorem rdropWhile_isApproach (hbefore : ∀ last ∈ before.getLast?, isApproach last = false) :
    before.rdropWhile isApproach = before := by
  rw [List.rdropWhile_eq_self_iff]
  intro hne
  simpa using hbefore _ (by rw [List.getLast?_eq_some_getLast hne]; rfl)

end Vehicle

/-- The first task begins where and when it may. -/
theorem Leads.head? [Scalar R] {a b : NodeId} {s t : Time} {tasks : List (Task R)}
    (h : Leads a s tasks b t) : ∀ first ∈ tasks.head?, first.source = a ∧ first.start = s := by
  cases h with
  | nil => simp
  | cons sound fresh later => simp

namespace Vehicle

variable [Scalar R] {depart : Time} {tasks : List (Task R)}

/-- A plan that has been written is an errand of its request, up to which the vehicle is brought. -/
theorem Written.errand {ctx : DispatchContext R} {request : Request} {plan : Insertion R}
    (h : Written before stay plan.depart plan.tasks v v')
    (hfresh : ∀ task ∈ v.schedule.tasks, task.kind.request? ≠ some request.id)
    (heval : v.evaluate ctx request = .ok plan) :
    ∃ approach pickup ride dropoff, plan.tasks = approach ++ pickup :: (ride ++ [dropoff]) ∧
      (∀ task ∈ approach, task.isStay = true ∨ task.kind.isDrive = true) ∧
      Errand v' request.id (before ++ stay.partBefore plan.depart ++ approach) ride
        (Schedule.leftover (stay.partFrom plan.depart) plan.tasks) pickup dropoff := by
  obtain ⟨approach, pickup, ride, dropoff, htasks, happroach, hboards, hride, halights⟩ :=
    evaluate_trip heval
  have hhead := Task.partBefore_isStay h.idle plan.depart
  have hrest := Schedule.leftover_isStay (Task.partFrom_isStay h.idle plan.depart) plan.tasks
  have hnew := h.new
  generalize stay.partBefore plan.depart = head at hnew hhead ⊢
  generalize Schedule.leftover (stay.partFrom plan.depart) plan.tasks = rest at hnew hrest ⊢
  have hsplit : v'.schedule.tasks =
      before ++ head ++ approach ++ pickup :: (ride ++ dropoff :: rest) := by
    rw [hnew, htasks]
    simp
  refine ⟨approach, pickup, ride, dropoff, htasks, happroach, hsplit, hboards, hride, halights,
    fun e => ⟨?_, Schedule.visits_idle hrest⟩⟩
  refine Schedule.visits_eq_nil fun task htask => ?_
  simp only [List.mem_append] at htask
  rcases htask with (hold | hcut) | hbrings
  · exact hfresh task (by simp [h.old, hold])
  · simp [Task.request?_eq_none (.inl (hhead task hcut))]
  · simp [Task.request?_eq_none (happroach task hbrings)]

/-- A plan that has just been written is taken back from where its approach begins, which reaches
into the idle time before as far as that has not been begun. -/
theorem Written.reclaims {ctx : DispatchContext R} {request : Request} {plan : Insertion R}
    (h : Written before stay plan.depart plan.tasks v v') (hvalid' : v'.schedule.Valid)
    (hplanned : ∀ task ∈ plan.tasks, task.status = .planned)
    (hfresh : ∀ task ∈ v.schedule.tasks, task.kind.request? ≠ some request.id)
    (heval : v.evaluate ctx request = .ok plan) :
    let front := (before ++ stay.partBefore plan.depart).rdropWhile isApproach
    ∃ first rest, v'.schedule.tasks = front ++ first :: rest ∧
      (retract request.id).Ends v'
        (fun _ v'' => v'' = { v' with schedule := ⟨front ++ [Schedule.reclaimed front first
          v'.schedule.finish (v'.profile?.map fun profile =>
            profile.idleEnergy (v'.schedule.finish.since first.start))]⟩ })
        fun _ _ => False := by
  intro front
  obtain ⟨approach, pickup, ride, dropoff, htasks, happroach, errand⟩ := h.errand hfresh heval
  have hrest := Schedule.leftover_isStay (Task.partFrom_isStay h.idle plan.depart) plan.tasks
  have hwaits : pickup.status = .planned := hplanned pickup (by simp [htasks])
  have hbrings : ∀ task ∈ approach, isApproach task = true := fun task htask =>
    isApproach_iff.mpr ⟨happroach task htask, hplanned task (by simp [htasks, htask])⟩
  obtain ⟨first, rest, hfront, hloose, -⟩ := errand.exists_front hvalid' hwaits hrest
  have hends := retract_reclaims errand hwaits hrest hfront hloose
  rw [rdropWhile_append_approach hbrings] at hfront hends
  exact ⟨first, rest, hfront, hends⟩

/-- Idle time that has been begun is cut where a plan begins. -/
theorem Written.partBefore_eq (h : Written before stay depart tasks v v')
    (hbegun : stay.status = .started) :
    stay.partBefore depart = [stay.headUntil depart] := by
  refine if_pos ?_
  by_contra hnot
  have hwaiting := h.waiting
  rw [Task.partFrom, if_neg hnot, hbegun] at hwaiting
  cases hwaiting

/-- Idle time for a plan is planned if it has not been begun. -/
theorem Written.planned_of_not_started (h : Written before stay depart tasks v v')
    (hwaits : stay.status ≠ .started) : stay.status = .planned := by
  cases hstatus : stay.status with
  | planned => rfl
  | started => exact (hwaits hstatus).elim
  | performed => exact (h.opened hstatus).elim

/-- The way back from a plan that has been written ends where the idle time began, or where it is
cut if it has been begun. -/
theorem Written.rdropWhile_isApproach (h : Written before stay depart tasks v v')
    (hsettles : v.schedule.Settles) :
    (before ++ stay.partBefore depart).rdropWhile isApproach =
      before ++ if stay.status = .started then [stay.headUntil depart] else [] := by
  by_cases hbegun : stay.status = .started
  · rw [if_pos hbegun, h.partBefore_eq hbegun]
    refine Vehicle.rdropWhile_isApproach fun last hlast => ?_
    obtain rfl : stay.headUntil depart = last := by simpa using hlast
    simp [isApproach, Task.headUntil, hbegun]
  · have hwaiting := h.planned_of_not_started hbegun
    rw [if_neg hbegun, List.append_nil, rdropWhile_append_approach fun task htask => ?_]
    · exact Vehicle.rdropWhile_isApproach (hsettles before stay h.old h.idle)
    · have hidle := Task.partBefore_isStay h.idle depart task htask
      rw [Task.eq_of_mem_partBefore htask] at hidle ⊢
      exact isApproach_iff.mpr ⟨.inl hidle, hwaiting⟩

/-- Taking a plan back that has just been written leaves the idle time as it was, but for a cut
where the plan began if it has been begun. -/
theorem retract_regains {ctx : DispatchContext R} {request : Request} {plan : Insertion R}
    (hctx : Dispatcher.Ready ctx.config ctx.router) (h : v.InOrder)
    (hwritten : Written before stay plan.depart plan.tasks v v') (hvalid' : v'.schedule.Valid)
    (hfresh : ∀ task ∈ v.schedule.tasks, task.kind.request? ≠ some request.id)
    (heval : v.evaluate ctx request = .ok plan) :
    (retract request.id).Ends v'
      (fun _ v'' => ∃ head idle, v'' = { v with schedule := ⟨before ++ (head ++ [idle])⟩ } ∧
        (∀ task ∈ head ++ [idle], task.isStay = true ∧ task.target = stay.target) ∧
        idle.status = .planned ∧
        idle.start = if stay.status = .started then opening stay ctx.now else stay.start)
      fun _ _ => False := by
  have hlimit : v.schedule.finish < .last := h.valid.ends ▸ h.horizon
  obtain ⟨slot, _, _, _, _, hplan⟩ := evaluate_ok heval
  have hopens := hplan.opens
  obtain ⟨t, -, hleads⟩ := evaluate_leads hctx hopens (openSlot?_limit hopens ▸ hlimit) heval
  rw [openSlot?_eq hwritten.old hwritten.idle, if_neg hwritten.opened] at hopens
  split_ifs at hopens with hroom
  obtain rfl := Option.some.inj hopens
  have hdepart : plan.depart = opening stay ctx.now := hplan.depart
  have hbegins := hwritten.begins
  have hplace : stay.source = stay.target := by
    have hsound := h.valid.sound stay (by simp [hwritten.old])
    exact hsound.stays.resolve_left (by simp [Task.not_isDrive hwritten.idle])
  have hplanned : ∀ task ∈ plan.tasks, task.status = .planned := fun task htask =>
    (hleads.mem task htask).2
  have hnew := hwritten.new
  obtain ⟨start, others, hfirst⟩ : ∃ start others, plan.tasks = start :: others := by
    obtain ⟨approach, pickup, ride, dropoff, htasks, -⟩ := evaluate_trip heval
    exact List.exists_cons_of_ne_nil (by simp [htasks])
  obtain ⟨hsource, hstart⟩ := hleads.head? start (by simp [hfirst])
  obtain ⟨first, rest, hfront, hends⟩ := hwritten.reclaims hvalid' hplanned hfresh heval
  rw [hwritten.rdropWhile_isApproach h.settles] at hfront hends
  have hsame : v' = { v with schedule := v'.schedule } := hwritten.same
  by_cases hbegun : stay.status = .started
  · have hcut := hwritten.partBefore_eq hbegun
    rw [if_pos hbegun] at hfront hends
    obtain ⟨rfl, -⟩ : start = first ∧ _ = rest := by simpa [hnew, hcut, hfirst] using hfront
    refine hends.mono ?_ fun _ _ hfails => hfails
    rintro - v'' rfl
    refine ⟨[stay.headUntil plan.depart], _, by rw [hsame, List.append_assoc], ?_, rfl, ?_⟩
    · simpa [Schedule.reclaimed, Task.stay, Task.isStay, TaskKind.isStay, hsource] using
        ⟨hwritten.idle, rfl⟩
    · rw [if_pos hbegun]
      exact hstart
  · rw [if_neg hbegun, List.append_nil] at hfront hends
    have hbegin : first.source = stay.target ∧ first.start = stay.start := by
      by_cases hcut : stay.start < plan.depart
      · have hhead : stay.partBefore plan.depart = [stay.headUntil plan.depart] := if_pos hcut
        obtain ⟨rfl, -⟩ : stay.headUntil plan.depart = first ∧ _ = rest := by
          simpa [hnew, hhead] using hfront
        exact ⟨hplace, rfl⟩
      · have hhead : stay.partBefore plan.depart = [] := if_neg hcut
        obtain ⟨rfl, -⟩ : start = first ∧ _ = rest := by simpa [hnew, hhead, hfirst] using hfront
        refine ⟨hsource, hstart.trans ?_⟩
        rw [← hdepart]
        simp only [Time.le_iff, Time.lt_iff, Time.eq_iff] at *
        omega
    refine hends.mono ?_ fun _ _ hfails => hfails
    rintro - v'' rfl
    refine ⟨[], _, by rw [hsame, List.nil_append], ?_, rfl, ?_⟩
    · simp [Schedule.reclaimed, Task.stay, Task.isStay, TaskKind.isStay, hbegin.1]
    · rw [if_neg hbegun]
      exact hbegin.2

/-- Taking back a plan that has just been carried out undoes it, for every vehicle that was new once
and every request that it does not serve. Under valid settings a plan that an evaluation accepts can
be carried out, and then its request can be taken back. At every instant of the horizon the vehicle
does what it did before, and from the present on the same idle time is open for new work. -/
theorem retract_undoes_commit {v₀ v : Vehicle R} {network : Network R} {config : DispatchConfig}
    {now : Time} {request : Request} {plan : Insertion R} (hnew : v₀.IsNew)
    (hlast : v₀.finish < .last) (hlife : Relation.ReflTransGen Undergoes v₀ v)
    (hfresh : ∀ task ∈ v.schedule.tasks, task.kind.request? ≠ some request.id)
    (h : v.evaluate ⟨network, LeastTime.route, config, now⟩ request = .ok plan) :
    (config.validate = (.ok () : Except (DispatchError R) Unit) →
      ∃ v', commit plan v = .ok () v') ∧
    ∀ v', commit plan v = .ok () v' → ∃ v'', retract request.id v' = .ok () v'' ∧
      v'' = { v with schedule := v''.schedule } ∧
      (∀ t, v.start ≤ t → t < v.finish → ∃ occupation,
        v.schedule.occupation? t = some occupation ∧
          v''.schedule.occupation? t = some occupation) ∧
      ∀ later, now ≤ later → v''.openSlot? later = v.openSlot? later := by
  have horder := InOrder.of_life hnew hlast hlife
  have hlimit : v.schedule.finish < .last := horder.valid.ends ▸ horder.horizon
  have hwrites (hconfig : config.validate = (.ok () : Except (DispatchError R) Unit)) :=
    commit_written (.of_validate LeastTime.route_sound hconfig) horder.valid.toValid hlimit h
  refine ⟨fun hconfig => ?_, fun v' hcommit => ?_⟩
  · obtain ⟨⟨⟩, v', hcommit, -⟩ := (hwrites hconfig).exists_ok
    exact ⟨v', hcommit⟩
  have hconfig := validate_of_commit h hcommit
  have hctx : Dispatcher.Ready config (LeastTime.route (R := R)) :=
    .of_validate LeastTime.route_sound hconfig
  obtain ⟨node, before, stay, t, hwritten, -⟩ := (hwrites hconfig).of_ok hcommit
  have horder' := horder.commit hctx hfresh h hcommit
  have hregains := retract_regains hctx horder hwritten horder'.valid.toValid hfresh h
  obtain ⟨⟨⟩, v'', hretract, ⟨head, idle, hsame, hidle, hwaiting, hstart⟩, horder''⟩ :=
    ((hregains.and (horder'.retract request.id)).mono (fun _ _ hends => hends)
      fun _ _ hends => hends.1).exists_ok
  have hvalid := horder.valid
  have hvalid' := horder''.valid
  subst hsame
  rw [Schedule.eq_of_tasks hwritten.old] at hvalid
  have hrecut : ∀ task ∈ [stay] ++ (head ++ [idle]),
      task.isStay = true ∧ task.target = stay.target := by
    intro task htask
    rcases List.mem_cons.mp htask with rfl | hcut
    · exact ⟨hwritten.idle, rfl⟩
    · exact hidle task hcut
  refine ⟨_, hretract, rfl, fun t hbegins hends => ?_, fun later hlater => ?_⟩
  · rw [Schedule.eq_of_tasks hwritten.old]
    exact hvalid.occupation?_recut hvalid' hrecut hbegins hends
  · obtain ⟨hstay, htarget⟩ := hidle idle (by simp)
    have htasks : ({ v with schedule := ⟨before ++ (head ++ [idle])⟩ } : Vehicle R).schedule.tasks =
        (before ++ head) ++ [idle] := by simp
    have hfinish : idle.finish = stay.finish := by
      have hends := hvalid'.ends.trans hvalid.ends.symm
      rwa [Schedule.eq_of_tasks htasks, Schedule.finish_append_singleton,
        Schedule.finish_append_singleton] at hends
    rw [openSlot?_eq htasks hstay, openSlot?_eq hwritten.old hwritten.idle,
      if_neg hwritten.opened, hwaiting, opening_recut hwaiting hstart hlater, htarget, hfinish]
    rfl

/-- A vehicle that has begun to idle is given a trip. When the trip is taken back, it is idle at the
same stop at every instant and open for work as before, although its idle time is cut in two. -/
theorem retract_undoes_commit_begun :
    let idle : Task Rat := Task.stay ⟨0⟩ .zero (.ofSecs 9000)
    let v₀ : Vehicle Rat := ⟨⟨0⟩, ⟨0⟩, .zero, .ofSecs 9000, 1, none, ⟨[idle]⟩⟩
    let v : Vehicle Rat := { v₀ with schedule :=
      ⟨[{ idle with status := .started, startedAt := some .zero }]⟩ }
    let request : Request :=
      ⟨⟨0⟩, ⟨0⟩, ⟨1⟩, ⟨0⟩, .zero, some ⟨.ofSecs 500, .ofSecs 900⟩⟩
    ∃ plan v' v'', v.evaluate ⟨.twoStops, LeastTime.route, {}, .zero⟩ request = .ok plan ∧
      commit plan v = .ok () v' ∧ retract request.id v' = .ok () v'' ∧
      v''.schedule.size = 2 ∧
      (∃ occupation, v.schedule.occupation? (.ofSecs 600) = some occupation ∧
        v''.schedule.occupation? (.ofSecs 600) = some occupation) ∧
      v''.openSlot? .zero = some ⟨⟨0⟩, .ofSecs 1, .ofSecs 9000⟩ := by
  intro idle v₀ v request
  have hnew : v₀.IsNew := ⟨⟨0⟩, ⟨0⟩, .zero, .ofSecs 9000, 1, .inl rfl⟩
  have hstep : Undergoes v₀ v := .execution .zero ⟨v₀, .stationary ⟨0⟩ .zero, .empty⟩
  have hplan : ((v.evaluate ⟨.twoStops, LeastTime.route, {}, .zero⟩ request).toOption.bind
      fun plan => ((commit plan).after? v).bind fun v' =>
        ((retract request.id).after? v').map fun v'' => v''.schedule.size) = some 2 := by
    decide +kernel
  cases hevaluate : v.evaluate ⟨.twoStops, LeastTime.route, {}, .zero⟩ request with
  | error reason => simp [hevaluate, Except.toOption] at hplan
  | ok plan =>
    obtain ⟨hwrites, hundoes⟩ :=
      retract_undoes_commit hnew (by decide) (.single hstep) (by decide) hevaluate
    obtain ⟨v', hcommit⟩ := hwrites rfl
    obtain ⟨v'', hretract, -, hdoes, hopen⟩ := hundoes v' hcommit
    refine ⟨plan, v', v'', rfl, hcommit, hretract, ?_, hdoes _ (by decide) (by decide), ?_⟩
    · simpa [hevaluate, Except.toOption, Action.after?, hcommit, hretract] using hplan
    · rw [hopen .zero (by decide)]
      decide +kernel

end Vehicle

end DemandTransport
