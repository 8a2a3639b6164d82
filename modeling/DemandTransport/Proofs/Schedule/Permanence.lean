import DemandTransport.Proofs.Schedule.Histories

/-!
# What has been begun stays where it is

Changes of a schedule shift the tasks behind their place, and giving work back cuts tasks off, but a
task that has been begun has only tasks that are over before it. So no call moves it: a task that is
over stays as it is under its index, and one that is being executed goes on under its index. This
rests on the order of the tasks in time and by status alone. Calls keep that order even where a task
that is inserted tears the vehicle's way apart, so the places of tasks are forgotten here.
-/

namespace DemandTransport

variable {R : Type}

/-- A task that has been begun, as it may be found later: it may have ended, its energy may have
been set, and idle time may have been cut short. -/
structure Task.Continues (task later : Task R) : Prop where
  begun : later.status = .started ∨ later.status = .performed
  kind : later.kind = task.kind
  start : later.start = task.start
  source : later.source = task.source
  target : later.target = task.target
  startedAt : later.startedAt = task.startedAt
  finish : later.finish = task.finish ∨
    (task.isStay = true ∧ task.start < later.finish ∧ later.finish < task.finish)

/-- A task that has begun continues as it is. -/
theorem Task.Continues.refl {task : Task R} (h : task.status ≠ .planned) : task.Continues task where
  begun := by cases hstatus : task.status <;> simp_all
  kind := rfl
  start := rfl
  source := rfl
  target := rfl
  startedAt := rfl
  finish := .inl rfl

/-- What continues twice continues. -/
theorem Task.Continues.trans {a b c : Task R} (h : a.Continues b) (h' : b.Continues c) :
    a.Continues c where
  begun := h'.begun
  kind := h'.kind.trans h.kind
  start := h'.start.trans h.start
  source := h'.source.trans h.source
  target := h'.target.trans h.target
  startedAt := h'.startedAt.trans h.startedAt
  finish := by
    have hstay : b.isStay = a.isStay := by rw [Task.isStay, Task.isStay, h.kind]
    rcases h'.finish with hfinish' | ⟨hidle, hstart', hshort'⟩
    · rw [hfinish']
      exact h.finish
    · rw [hstay] at hidle
      rw [h.start] at hstart'
      refine .inr ⟨hidle, hstart', ?_⟩
      rcases h.finish with hfinish | ⟨-, -, hshort⟩
      · rwa [hfinish] at hshort'
      · exact Nat.lt_trans hshort' hshort

namespace Schedule

/-- Everything that has been begun in a schedule is found under its index in another one: what is
over as it is, and what is being executed as the same work. -/
structure Remembers (s later : Schedule R) : Prop where
  performed : ∀ (i : Nat) (task : Task R), s.tasks[i]? = some task → task.status = .performed →
    later.tasks[i]? = some task
  started : ∀ (i : Nat) (task : Task R), s.tasks[i]? = some task → task.status = .started →
    ∃ task', later.tasks[i]? = some task' ∧ task.Continues task'

/-- A schedule remembers itself. -/
theorem Remembers.refl (s : Schedule R) : s.Remembers s where
  performed _ _ h _ := h
  started _ task h hstarted := ⟨task, h, .refl (by simp [hstarted])⟩

/-- Whatever has begun is still found under its index. -/
theorem Remembers.continues {s later : Schedule R} (h : s.Remembers later) {i : Nat}
    {task : Task R} (hget : s.tasks[i]? = some task) (hbegun : task.status ≠ .planned) :
    ∃ task', later.tasks[i]? = some task' ∧ task.Continues task' := by
  cases hstatus : task.status with
  | planned => exact (hbegun hstatus).elim
  | started => exact h.started i task hget hstatus
  | performed => exact ⟨task, h.performed i task hget hstatus, .refl hbegun⟩

theorem Remembers.trans {s t u : Schedule R} (h : s.Remembers t) (h' : t.Remembers u) :
    s.Remembers u where
  performed i task hget hdone := h'.performed i task (h.performed i task hget hdone) hdone
  started i task hget hstarted := by
    obtain ⟨task', hget', hcontinues⟩ := h.started i task hget hstarted
    have hbegun : task'.status ≠ .planned := by rcases hcontinues.begun with h | h <;> simp [h]
    obtain ⟨task'', hget'', hcontinues'⟩ := h'.continues hget' hbegun
    exact ⟨task'', hget'', hcontinues.trans hcontinues'⟩

/-- Planned tasks at the end of a schedule can be replaced by anything. -/
theorem remembers_of_planned {before old new : List (Task R)}
    (hplanned : ∀ task ∈ old, task.status = .planned) :
    Remembers ⟨before ++ old⟩ ⟨before ++ new⟩ := by
  have hkept {i : Nat} {task : Task R} (hget : (before ++ old)[i]? = some task)
      (hbegun : task.status ≠ .planned) : (before ++ new)[i]? = some task :=
    getElem?_replace hget fun hold => hbegun (hplanned task hold)
  refine ⟨fun i task hget hdone => hkept hget (by simp [hdone]), fun i task hget hstarted => ?_⟩
  have hbegun : task.status ≠ .planned := by simp [hstarted]
  exact ⟨task, hkept hget hbegun, .refl hbegun⟩

/-- So can the task before them, if it is not over and goes on where it has been begun. -/
theorem remembers_of_open {before after new : List (Task R)} {task task' : Task R}
    (hopen : task.status ≠ .performed) (hplanned : ∀ b ∈ after, b.status = .planned)
    (hgoes : task.status = .started → task.Continues task') :
    Remembers ⟨before ++ task :: after⟩ ⟨before ++ task' :: new⟩ := by
  have hbehind : Remembers ⟨(before ++ [task]) ++ after⟩ ⟨(before ++ [task]) ++ new⟩ :=
    remembers_of_planned hplanned
  have hplace (new' : Task R) : (before ++ new' :: new)[before.length]? = some new' := by simp
  refine Remembers.trans (by simpa using hbehind) ⟨fun i other hget hdone => ?_,
    fun i other hget hstarted => ?_⟩ <;> by_cases hi : i = before.length
  · subst hi
    cases (hplace task).symm.trans hget
    exact (hopen hdone).elim
  · exact getElem?_replaceOne hget hi
  · subst hi
    cases (hplace task).symm.trans hget
    exact ⟨task', hplace task', hgoes hstarted⟩
  · exact ⟨other, getElem?_replaceOne hget hi, .refl (by simp [hstarted])⟩

end Schedule

/-! ## The order of the tasks alone -/

/-- A task with its places forgotten. -/
def Task.timed (task : Task R) : Task R := { task with source := ⟨0⟩, target := ⟨0⟩ }

namespace Schedule

/-- A schedule with the places of its tasks forgotten. -/
def timeline (s : Schedule R) : Schedule R := ⟨s.tasks.map Task.timed⟩

@[simp] theorem timeline_append (before after : List (Task R)) (task : Task R) :
    timeline ⟨before ++ task :: after⟩ =
      ⟨before.map Task.timed ++ task.timed :: after.map Task.timed⟩ := by
  simp [timeline]

@[simp] theorem start_timeline (s : Schedule R) : s.timeline.start = s.start := by
  obtain ⟨_ | ⟨task, rest⟩⟩ := s <;> rfl

@[simp] theorem finish_timeline (s : Schedule R) : s.timeline.finish = s.finish := by
  unfold finish timeline
  rw [List.getLast?_map, Option.map_map]
  rfl

/-- Looking a task up does not depend on where the vehicle is. -/
theorem get_timeline (s : Schedule R) (index : Nat) :
    s.timeline.get index = (s.get index).map Task.timed := by
  unfold get timeline
  rw [List.getElem?_map]
  cases s.tasks[index]? <;> rfl

/-- Looking up an instant does not depend on places. -/
theorem current_timeline (s : Schedule R) (t : Time) :
    s.timeline.current t = (s.current t).map fun (index, task) => (index, task.timed) := by
  have hindex : s.timeline.currentIndex t = s.currentIndex t := by
    unfold currentIndex bisect
    rw [start_timeline, finish_timeline, timeline, bisectFrom_map, List.length_map]
    rfl
  unfold current
  rw [hindex]
  cases hcurrent : s.currentIndex t with
  | error e => rfl
  | ok index =>
    simp only [bind, Except.bind, get_timeline]
    cases s.get index <;> rfl

/-- Nor does executing tasks. -/
theorem advance_timeline (s : Schedule R) (index : Nat) (status : TaskStatus) (t : Time) :
    s.timeline.advance index status t =
      (s.advance index status t).map fun (task, s') => (task.timed, s'.timeline) := by
  have hblocking : s.timeline.blocking? index status = s.blocking? index status := by
    unfold blocking? timeline
    rw [List.getElem?_map]
    cases s.tasks[index - 1]? <;> rfl
  unfold advance
  rw [get_timeline, hblocking]
  cases s.get index with
  | error e => rfl
  | ok task =>
    cases s.blocking? index status with
    | some previous => rfl
    | none =>
      have hadvanced : (task.advanced status t).timed = task.timed.advanced status t := by
        cases status <;> rfl
      by_cases hnext : task.status.next? = some status
      · have hnext' : task.timed.status.next? = some status := hnext
        simp [Except.map, bind, Except.bind, pure, Except.pure, Task.advance, hnext, hnext',
          timeline, hadvanced]
      · simp [Except.map, bind, Except.bind, Task.advance, hnext, Task.timed]

/-- The tasks of a schedule are in order, whatever their places. -/
def InSequence (s : Schedule R) : Prop := s.timeline.Valid

/-- A valid schedule is in sequence: places are all that is left out. -/
theorem Valid.inSequence {s : Schedule R} (h : s.Valid) : s.InSequence := by
  refine ⟨by simpa [timeline] using h.nonempty, ?_, ?_⟩
  · intro task htask
    obtain ⟨original, horiginal, rfl⟩ := List.mem_map.mp htask
    exact ⟨(h.sound original horiginal).lasts, .inr rfl⟩
  · refine (List.isChain_map Task.timed).mpr (h.seams.imp fun a b hab => ?_)
    exact ⟨hab.time, rfl, hab.order⟩

theorem InSequence.validOver {s : Schedule R} (h : s.InSequence) :
    s.timeline.ValidOver s.start s.finish :=
  ⟨h, start_timeline s, finish_timeline s⟩

theorem InSequence.timed {before after : List (Task R)} {task : Task R}
    (h : InSequence ⟨before ++ task :: after⟩) :
    ValidOver ⟨before.map Task.timed ++ task.timed :: after.map Task.timed⟩
      (Schedule.start ⟨before ++ task :: after⟩) (Schedule.finish ⟨before ++ task :: after⟩) := by
  rw [← timeline_append]
  exact h.validOver

/-- Behind a task that is not over, nothing has begun. -/
theorem InSequence.planned_after {before after : List (Task R)} {task : Task R}
    (h : InSequence ⟨before ++ task :: after⟩) (hopen : task.status ≠ .performed) :
    ∀ b ∈ after, b.status = .planned := fun b hb =>
  h.timed.toValid.planned_after hopen b.timed (List.mem_map_of_mem hb)

/-- Before a task that has begun, everything is over. -/
theorem InSequence.performed_before {before after : List (Task R)} {task : Task R}
    (h : InSequence ⟨before ++ task :: after⟩) (hbegun : task.status ≠ .planned) :
    ∀ a ∈ before, a.status = .performed := fun a ha =>
  h.timed.toValid.performed_before hbegun a.timed (List.mem_map_of_mem ha)

/-- A task whose turn it is may start or end. -/
theorem InSequence.becomes {before after : List (Task R)} {task task' : Task R}
    {status : TaskStatus} (h : InSequence ⟨before ++ task :: after⟩)
    (hdone : ∀ a ∈ before, a.status = .performed) (hbecomes : task.Becomes task' status) :
    InSequence ⟨before ++ task' :: after⟩ := by
  have htimed : task.timed.Becomes task'.timed status :=
    ⟨hbecomes.next, hbecomes.status, hbecomes.kind, hbecomes.start, hbecomes.finish, rfl, rfl⟩
  have hvalid := (h.timed.becomes (by simpa [Task.timed] using hdone) htimed).toValid
  rw [InSequence, timeline_append]
  exact hvalid

theorem InSequence.lasts {s : Schedule R} (h : s.InSequence) (task : Task R)
    (htask : task ∈ s.tasks) : task.start < task.finish :=
  (Valid.sound h task.timed (List.mem_map_of_mem htask)).lasts

/-- The current task is found by the instant that it covers. -/
theorem InSequence.current_ok {s : Schedule R} (h : s.InSequence) {t : Time} {index : Nat}
    {task : Task R} (hcurrent : s.current t = .ok (index, task)) :
    ∃ before after, s.tasks = before ++ task :: after ∧ before.length = index ∧
      task.Covers t := by
  obtain ⟨before, after, htasks, hlength⟩ := get_ok (get_of_current hcurrent)
  refine ⟨before, after, htasks, hlength, ?_⟩
  have htimed : s.timeline.current t = .ok (index, task.timed) := by
    rw [current_timeline, hcurrent]
    rfl
  obtain ⟨-, -, -, -, hcovers⟩ := Valid.current_ok h htimed
  exact hcovers

/-- Tasks that fit, places apart, take the place of another one. -/
theorem InSequence.replaceOne {before mid after : List (Task R)} {task : Task R}
    (h : InSequence ⟨before ++ task :: after⟩)
    (hfits : Fits (before.map Task.timed) [task.timed] (mid.map Task.timed)
      (after.map Task.timed)) : InSequence ⟨before ++ mid ++ after⟩ := by
  rw [InSequence, timeline, List.map_append, List.map_append]
  exact (h.timed.replaceOne hfits).toValid

/-! ## Every call -/

/-- Work that is carved from planned idle time, whatever its places. -/
theorem InSequence.insert [Scalar R] {s s' : Schedule R} {task : Task R} {index given : Nat}
    (h : s.InSequence) (hinsert : s.insert task index = .ok (given, s')) :
    s'.InSequence ∧ s.Remembers s' := by
  obtain ⟨before, stay, after, htasks, -, hcarves, -, rfl⟩ := insert_ok hinsert
  obtain ⟨⟩ := s
  subst htasks
  constructor
  · have htimed : Carves stay.timed task.timed (after.map Task.timed) :=
      ⟨hcarves.idle, hcarves.waiting, hcarves.fresh, hcarves.lasts, hcarves.starts, hcarves.fits,
        rfl, fun _ => rfl⟩
    have hmid : (task :: remainder stay task).map Task.timed =
        task.timed :: remainder stay.timed task.timed := by
      by_cases hall : task.finish = stay.finish
      · have hall' : task.timed.finish = stay.timed.finish := hall
        rw [remainder, remainder, if_pos hall, if_pos hall', List.map_cons, List.map_nil]
      · have hall' : ¬task.timed.finish = stay.timed.finish := hall
        rw [remainder, remainder, if_neg hall, if_neg hall']
        rfl
    refine h.replaceOne ?_
    rw [hmid]
    exact fits_of_carves htimed (.inr rfl)
  · have hplanned := h.planned_after (by simp [hcarves.waiting])
    rw [List.append_assoc]
    exact remembers_of_planned (by simpa using ⟨hcarves.waiting, hplanned⟩)

/-- Cutting an idle stretch in two keeps the order, and what has begun keeps its index. -/
theorem InSequence.splitStayAt [Scalar R] {s s' : Schedule R} {t : Time} {parts : Nat × Nat}
    (h : s.InSequence) (hsplit : s.splitStayAt t = .ok (parts, s')) :
    s'.InSequence ∧ s.Remembers s' := by
  obtain ⟨index, stay, hcurrent, hsplits, -, rfl⟩ := splitStayAt_ok hsplit
  obtain ⟨before, after, htasks, rfl, hcovers⟩ := h.current_ok hcurrent
  obtain ⟨⟩ := s
  subst htasks
  rw [splice_append]
  constructor
  · have htimed : Splits stay.timed t := ⟨hsplits.idle, hsplits.unfinished, hsplits.inside⟩
    exact h.replaceOne (fits_of_splits htimed hcovers rfl)
  · have hplanned := h.planned_after hsplits.unfinished
    have hgoes : stay.status = .started → stay.Continues (stay.headUntil t) := by
      intro hstarted
      refine ⟨.inl hstarted, rfl, rfl, rfl, rfl, rfl, .inr ⟨hsplits.idle, ?_, hcovers.2⟩⟩
      have hstart := hcovers.1
      have hinside := hsplits.inside
      simp only [Task.headUntil, Time.le_iff, Time.lt_iff, Time.eq_iff, ne_eq] at *
      omega
    rw [List.append_assoc]
    exact remembers_of_open hsplits.unfinished hplanned hgoes

/-- So does making room for new tasks, which cuts an idle stretch at most. -/
theorem InSequence.insertionPoint [Scalar R] {s s' : Schedule R} {t : Time} {index : Nat}
    (h : s.InSequence) (hpoint : s.insertionPoint t = .ok (index, s')) :
    s'.InSequence ∧ s.Remembers s' := by
  rcases insertionPoint_ok hpoint with ⟨-, -, -, -, -, rfl⟩ | ⟨first, hsplit⟩
  · exact ⟨h, .refl s'⟩
  · exact h.splitStayAt hsplit

/-- A task that moves on is the one thing that changes, and its index stays. -/
theorem InSequence.advance {s s' : Schedule R} {index : Nat} {status : TaskStatus} {t : Time}
    {task' : Task R} (h : s.InSequence) (hadvance : s.advance index status t = .ok (task', s')) :
    s'.InSequence ∧ s.Remembers s' := by
  constructor
  · have htimed : s.timeline.advance index status t = .ok (task'.timed, s'.timeline) := by
      rw [advance_timeline, hadvance]
      rfl
    exact (h.validOver.advance htimed).toValid
  · obtain ⟨before, task, after, htasks, -, hnext, -, rfl, rfl⟩ := advance_ok hadvance
    obtain ⟨⟩ := s
    subst htasks
    have hopen : task.status ≠ .performed := fun hdone => by simp [hdone, TaskStatus.next?] at hnext
    refine remembers_of_open hopen (h.planned_after hopen) fun hstarted => ?_
    cases hstatus : status with
    | performed => exact ⟨.inr rfl, rfl, rfl, rfl, rfl, rfl, .inl rfl⟩
    | _ => simp [hstarted, hstatus, TaskStatus.next?] at hnext

/-- Nothing that has begun is taken back. -/
theorem InSequence.retractFrom {s s' : Schedule R} {index : Nat} {energy : Option R}
    (h : s.InSequence) (hretract : s.retractFrom index energy = .ok s') :
    s'.InSequence ∧ s.Remembers s' := by
  obtain ⟨before, first, after, htasks, -, hplanned, rfl⟩ := retractFrom_ok hretract
  obtain ⟨⟩ := s
  subst htasks
  refine ⟨?_, remembers_of_planned hplanned⟩
  have hplanned' : ∀ task ∈ first.timed :: after.map Task.timed, task.status = .planned := by
    simpa [Task.timed] using hplanned
  have hvalid := h.timed.retractFrom (retractFrom_append hplanned' energy)
  have hlast : (before.map Task.timed).getLast?.bind (fun task => task.kind.docksAt) =
      before.getLast?.bind fun task => task.kind.docksAt := by
    rw [List.getLast?_map]
    cases before.getLast? <;> rfl
  rw [← timeline_append, finish_timeline] at hvalid
  rw [InSequence, timeline_append, List.map_nil]
  rw [reclaimed, hlast] at hvalid
  exact hvalid.toValid

/-- Nothing that has begun is given up. -/
theorem InSequence.vacate {s s' : Schedule R} {index : Nat} (h : s.InSequence)
    (hvacate : s.vacate index = .ok s') : s'.InSequence ∧ s.Remembers s' := by
  obtain ⟨before, task, after, htasks, -, hstatus, hdrive, rfl⟩ := vacate_ok hvacate
  obtain ⟨⟩ := s
  subst htasks
  have hplanned := h.planned_after (by simp [hstatus])
  have hgoes : task.status = .started → task.Continues { task with kind := .stay none } := by
    simp [hstatus]
  refine ⟨?_, remembers_of_open (by simp [hstatus]) hplanned hgoes⟩
  have hvalid := (h.timed.vacate (vacate_append hstatus hdrive)).toValid
  rw [InSequence, timeline_append]
  exact hvalid

/-- Another amount of energy changes neither order nor status. -/
theorem InSequence.overrideEnergy {s s' : Schedule R} {index : Nat} {kwh : R}
    (h : s.InSequence) (henergy : s.overrideEnergy index kwh = .ok s') :
    s'.InSequence ∧ s.Remembers s' := by
  obtain ⟨before, task, after, htasks, -, hopen, rfl⟩ := overrideEnergy_ok henergy
  obtain ⟨⟩ := s
  subst htasks
  have hgoes : task.status = .started → task.Continues (task.withEnergy kwh) := fun hstarted =>
    ⟨.inl hstarted, rfl, rfl, rfl, rfl, rfl, .inl rfl⟩
  refine ⟨?_, remembers_of_open hopen (h.planned_after hopen) hgoes⟩
  have hopen' : task.timed.status ≠ .performed := hopen
  have hvalid := (h.timed.overrideEnergy (overrideEnergy_append hopen' kwh)).toValid
  rw [InSequence, timeline_append]
  exact hvalid

variable [Scalar R] {s : Schedule R}

/-- A call that is made keeps the order and what has been begun. -/
theorem InSequence.makes {s' : Schedule R} (h : s.InSequence) {edit : Edit R}
    (hmakes : Edit.Makes s s' edit) : s'.InSequence ∧ s.Remembers s' := by
  cases hmakes with
  | insert hinsert => exact h.insert hinsert
  | splitStayAt hsplit => exact h.splitStayAt hsplit
  | insertionPoint hpoint => exact h.insertionPoint hpoint
  | advance hadvance => exact h.advance hadvance
  | retractFrom hretract => exact h.retractFrom hretract
  | vacate hvacate => exact h.vacate hvacate
  | overrideEnergy henergy => exact h.overrideEnergy henergy

/-- So do any calls, made or refused. -/
theorem InSequence.performAll (h : s.InSequence) (edits : List (Edit R)) :
    InSequence (Edit.performAll edits s) ∧ s.Remembers (Edit.performAll edits s) :=
  performAll_induction (P := fun later => later.InSequence ∧ s.Remembers later)
    (fun _ _ _ _ hmakes hs =>
      have hmade := hs.1.makes hmakes
      ⟨hmade.1, hs.2.trans hmade.2⟩) ⟨h, .refl s⟩

/-- From a valid schedule on, calls of any kind, made or refused, leave every task that is over as
it is under its index, and let every task that is being executed go on under its index. So the index
at which a task was started or ended, and under which this was told, names that task for good. -/
theorem begun_tasks_stay (hvalid : s.validate = .ok ()) (earlier later : List (Edit R)) :
    Remembers (Edit.performAll earlier s) (Edit.performAll (earlier ++ later) s) ∧
      ∀ (index : Nat) (status : TaskStatus) (t : Time) (task : Task R) (s' : Schedule R),
        (Edit.performAll earlier s).advance index status t = .ok (task, s') →
          ∃ task', (Edit.performAll later s').tasks[index]? = some task' ∧
            task.Continues task' := by
  have hordered := ((validate_eq_ok_iff.mp hvalid).inSequence.performAll earlier).1
  constructor
  · have happend : Edit.performAll (earlier ++ later) s =
        Edit.performAll later (Edit.performAll earlier s) := List.foldl_append
    rw [happend]
    exact (hordered.performAll later).2
  · intro index status t task s' hadvance
    have hlater := ((hordered.advance hadvance).1.performAll later).2
    obtain ⟨before, old, after, -, rfl, hnext, -, rfl, rfl⟩ := advance_ok hadvance
    have hbegun : (old.advanced status t).status ≠ .planned := by
      rw [(Task.becomes_advanced hnext t).status]
      rintro rfl
      cases hstatus : old.status <;> simp [hstatus, TaskStatus.next?] at hnext
    exact hlater.continues (by simp) hbegun

/-- While a vehicle is idle, its idle time is cut, ended, and followed by a charging session that is
then given back, and its first task cannot be given back with it. -/
theorem begun_tasks_stay_hundred_seconds :
    let stay (start finish : Nat) (status : TaskStatus) : Task Rat :=
      { Task.stay ⟨0⟩ (.ofSecs start) (.ofSecs finish) with status := status }
    let s : Schedule Rat := ⟨[stay 0 10 .performed, stay 10 50 .started, stay 50 100 .planned]⟩
    let earlier : List (Edit Rat) := [.splitStayAt (.ofSecs 30)]
    let later : List (Edit Rat) :=
      [.advance 1 .performed (.ofSecs 30),
        .insert (Task.charge ⟨1⟩ ⟨0⟩ (.ofSecs 30) (.ofSecs 40)) 2, .retractFrom 0 none,
        .retractFrom 2 none, .vacate 0]
    s.validate = .ok () ∧
      Remembers (Edit.performAll earlier s) (Edit.performAll (earlier ++ later) s) ∧
      (Edit.performAll (earlier ++ later) s).tasks.map (fun task => task.finish.secs) =
        [10, 30, 100] := by
  intro stay s earlier later
  have hvalid : s.validate = .ok () := by decide
  exact ⟨hvalid, (begun_tasks_stay hvalid earlier later).1, by decide⟩

end Schedule

end DemandTransport
