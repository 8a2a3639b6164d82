import DemandTransport.Execution.Event
import DemandTransport.Proofs.Schedule.Validity

/-!
# What the events tell

A task that has been begun has been told of once when it started and, if it is over, once when it
ended. So all that should have been told of a vehicle can be read off its schedule, and if this has
been told, it has been told in order: the tasks of a valid schedule follow each other without a gap.
-/

namespace DemandTransport

variable {R : Type}

/-- When a phase of a task takes place in the schedule. -/
def TaskPhase.time (phase : TaskPhase) (task : Task R) : Time :=
  match phase with
  | started => task.start
  | ended => task.finish

/-- The start or the end of a task, with what an event tells of it. -/
structure Occurrence where
  /-- The index of the task. -/
  index : Nat
  phase : TaskPhase
  activity : Activity
  time : Time
  deriving DecidableEq, Repr

/-- What an event tells, apart from the vehicle and its battery. -/
def TaskEvent.occurrence (event : TaskEvent R) : Occurrence :=
  ⟨event.index, event.phase, event.activity, event.time⟩

/-- One end of a task, when the task has a plug if it needs one. -/
def Task.occurrence (index : Nat) (task : Task R) (phase : TaskPhase) : Occurrence :=
  ⟨index, phase, Activity.ofKind task.kind, phase.time task⟩

/-- What has happened of a task. -/
def Task.occurrences (index : Nat) (task : Task R) : List Occurrence :=
  match task.status with
  | .planned => []
  | .started => [task.occurrence index .started]
  | .performed => [task.occurrence index .started, task.occurrence index .ended]

/-- What has happened of some tasks, of which the first has the given index. -/
def occurrencesFrom : Nat → List (Task R) → List Occurrence
  | _, [] => []
  | index, task :: rest => task.occurrences index ++ occurrencesFrom (index + 1) rest

/-- What has happened of the tasks of a schedule. -/
def Schedule.occurrences (s : Schedule R) : List Occurrence := occurrencesFrom 0 s.tasks

theorem occurrencesFrom_append (index : Nat) (a b : List (Task R)) :
    occurrencesFrom index (a ++ b) =
      occurrencesFrom index a ++ occurrencesFrom (index + a.length) b := by
  induction a generalizing index with
  | nil => rfl
  | cons task rest ih =>
    rw [List.cons_append, occurrencesFrom, occurrencesFrom, ih, List.append_assoc,
      List.length_cons, Nat.add_right_comm, Nat.add_assoc]

/-- Of planned tasks nothing has happened. -/
theorem occurrencesFrom_planned {index : Nat} {tasks : List (Task R)}
    (h : ∀ task ∈ tasks, task.status = .planned) : occurrencesFrom index tasks = [] := by
  induction tasks generalizing index with
  | nil => rfl
  | cons task rest ih =>
    obtain ⟨htask, hrest⟩ := List.forall_mem_cons.mp h
    rw [occurrencesFrom, ih hrest, Task.occurrences, htask]
    rfl

/-- Of a task that has not ended, the end is of no concern. -/
theorem occurrencesFrom_congr {index : Nat} {task other : Task R} (hkind : other.kind = task.kind)
    (hstart : other.start = task.start) (hstatus : other.status = task.status)
    (hopen : task.status ≠ .performed) :
    occurrencesFrom index [other] = occurrencesFrom index [task] := by
  cases hcase : task.status with
  | planned => simp [occurrencesFrom, Task.occurrences, hstatus, hcase]
  | started =>
    simp [occurrencesFrom, Task.occurrences, hstatus, hcase, Task.occurrence, TaskPhase.time, hkind,
      hstart]
  | performed => exact (hopen hcase).elim

/-! ## Reading the occurrences of a valid schedule -/

/-- Where all tasks behind the first one are planned, nothing has happened of them. -/
theorem occurrencesFrom_cons {index : Nat} {task : Task R} {rest : List (Task R)}
    (h : ∀ b ∈ rest, task.status = .performed ∨ b.status = .planned)
    (hopen : task.status ≠ .performed) :
    occurrencesFrom index (task :: rest) = task.occurrences index := by
  rw [occurrencesFrom, occurrencesFrom_planned fun b hb => (h b hb).resolve_left hopen,
    List.append_nil]

/-- The occurrences of tasks in order are the start and the end of each, as far as they have been
executed. -/
theorem occurrencesFrom_getElem? {tasks : List (Task R)} {index : Nat}
    (horder : tasks.Pairwise Schedule.Earlier) (i : Nat) :
    (occurrencesFrom index tasks)[2 * i]? =
        ((tasks[i]?.filter fun task => task.status ≠ .planned).map fun task =>
          task.occurrence (index + i) .started) ∧
      (occurrencesFrom index tasks)[2 * i + 1]? =
        ((tasks[i]?.filter fun task => task.status = .performed).map fun task =>
          task.occurrence (index + i) .ended) := by
  induction tasks generalizing index i with
  | nil => simp [occurrencesFrom]
  | cons task rest ih =>
    obtain ⟨hbehind, hrest⟩ := List.pairwise_cons.mp horder
    have horders : ∀ b ∈ rest, task.status = .performed ∨ b.status = .planned :=
      fun b hb => (hbehind b hb).2
    cases hstatus : task.status with
    | performed =>
      rw [occurrencesFrom, Task.occurrences, hstatus]
      cases i with
      | zero => simp [hstatus, Option.filter]
      | succ j =>
        have hlater := @ih (index + 1) hrest j
        rw [Nat.add_right_comm, Nat.add_assoc] at hlater
        simpa [Nat.mul_add] using hlater
    | started | planned =>
      have hopen : task.status ≠ .performed := by simp [hstatus]
      have hplanned : ∀ b ∈ rest, b.status = .planned := fun b hb =>
        (horders b hb).resolve_left hopen
      rw [occurrencesFrom_cons horders hopen, Task.occurrences, hstatus]
      cases i with
      | zero => simp [hstatus, Option.filter]
      | succ j =>
        have hnone : ∀ b ∈ rest[j]?, b.status = .planned := fun b hb =>
          hplanned b (List.mem_of_getElem? hb)
        cases hget : rest[j]? with
        | none => simp [hget]
        | some b => simp [hget, hnone b hget, Option.filter]

/-- The events of a vehicle in the order in which they should be told. -/
structure Chronicle (events : List (TaskEvent R)) : Prop where
  /-- Every task starts and ends in turn, without a gap and without repetition. -/
  alternates : ∀ (k : Nat) (event : TaskEvent R), events[k]? = some event →
    event.index = k / 2 ∧ event.phase = if k % 2 = 0 then .started else .ended
  /-- Both ends of a task tell of one activity. -/
  activities : ∀ (i : Nat) (a b : TaskEvent R), events[2 * i]? = some a →
    events[2 * i + 1]? = some b → b.activity = a.activity
  /-- A task starts when the one before it ends. -/
  seams : ∀ (i : Nat) (a b : TaskEvent R), events[2 * i + 1]? = some a →
    events[2 * i + 2]? = some b → b.time = a.time
  /-- Times never decrease. -/
  times : events.Pairwise fun a b => a.time ≤ b.time

section Reading

variable {s : Schedule R} {events : List (TaskEvent R)} {i : Nat} {event : TaskEvent R}

/-- An event with an even number tells that a task has started. -/
theorem Schedule.Valid.started_of_told (h : s.Valid)
    (htold : events.map TaskEvent.occurrence = s.occurrences)
    (hget : events[2 * i]? = some event) :
    ∃ task, s.tasks[i]? = some task ∧ event.occurrence = task.occurrence i .started := by
  have hoccurs := (@occurrencesFrom_getElem? R s.tasks 0 h.pairwise_earlier i).1
  have hread : (events.map TaskEvent.occurrence)[2 * i]? = some event.occurrence := by simp [hget]
  rw [htold, occurrences, hoccurs, Nat.zero_add] at hread
  obtain ⟨task, hfound, heq⟩ := Option.map_eq_some_iff.mp hread
  exact ⟨task, (Option.filter_eq_some_iff.mp hfound).1, heq.symm⟩

/-- One with an odd number tells that a task has ended. -/
theorem Schedule.Valid.ended_of_told (h : s.Valid)
    (htold : events.map TaskEvent.occurrence = s.occurrences)
    (hget : events[2 * i + 1]? = some event) :
    ∃ task, s.tasks[i]? = some task ∧ event.occurrence = task.occurrence i .ended := by
  have hoccurs := (@occurrencesFrom_getElem? R s.tasks 0 h.pairwise_earlier i).2
  have hread : (events.map TaskEvent.occurrence)[2 * i + 1]? = some event.occurrence := by
    simp [hget]
  rw [htold, occurrences, hoccurs, Nat.zero_add] at hread
  obtain ⟨task, hfound, heq⟩ := Option.map_eq_some_iff.mp hread
  exact ⟨task, (Option.filter_eq_some_iff.mp hfound).1, heq.symm⟩

/-- Events that tell what has happened of a valid schedule are in the order in which they should be
told. -/
theorem Schedule.Valid.chronicle (h : s.Valid)
    (htold : events.map TaskEvent.occurrence = s.occurrences) : Chronicle events := by
  have hactivities : ∀ (i : Nat) (a b : TaskEvent R), events[2 * i]? = some a →
      events[2 * i + 1]? = some b → b.activity = a.activity ∧ a.time ≤ b.time := by
    intro i a b ha hb
    obtain ⟨task, hget, hstarted⟩ := h.started_of_told htold ha
    obtain ⟨task', hget', hended⟩ := h.ended_of_told htold hb
    cases hget.symm.trans hget'
    have hlasts := (h.sound task (List.mem_of_getElem? hget)).lasts
    simp only [TaskEvent.occurrence, Task.occurrence, Occurrence.mk.injEq] at hstarted hended
    refine ⟨hended.2.2.1.trans hstarted.2.2.1.symm, ?_⟩
    rw [hstarted.2.2.2, hended.2.2.2]
    exact Nat.le_of_lt hlasts
  have hseams : ∀ (i : Nat) (a b : TaskEvent R), events[2 * i + 1]? = some a →
      events[2 * i + 2]? = some b → b.time = a.time := by
    intro i a b ha hb
    obtain ⟨task, hget, hended⟩ := h.ended_of_told htold ha
    have hb' : events[2 * (i + 1)]? = some b := hb
    obtain ⟨next, hnext, hstarted⟩ := h.started_of_told htold hb'
    obtain ⟨hi, rfl⟩ := List.getElem?_eq_some_iff.mp hget
    obtain ⟨hi', rfl⟩ := List.getElem?_eq_some_iff.mp hnext
    have hseam := List.isChain_iff_getElem.mp h.seams i hi'
    simp only [TaskEvent.occurrence, Task.occurrence, Occurrence.mk.injEq] at hstarted hended
    rw [hstarted.2.2.2, hended.2.2.2]
    exact hseam.time.symm
  refine ⟨fun k event hget => ?_, fun i a b ha hb => (hactivities i a b ha hb).1, hseams, ?_⟩
  · obtain ⟨i, rfl | rfl⟩ : ∃ i, k = 2 * i ∨ k = 2 * i + 1 := ⟨k / 2, by omega⟩
    · obtain ⟨task, -, hstarted⟩ := h.started_of_told htold hget
      simp only [TaskEvent.occurrence, Task.occurrence, Occurrence.mk.injEq] at hstarted
      simp [hstarted]
    · obtain ⟨task, -, hended⟩ := h.ended_of_told htold hget
      simp only [TaskEvent.occurrence, Task.occurrence, Occurrence.mk.injEq] at hended
      have hhalf : (2 * i + 1) / 2 = i := by omega
      have hodd : (2 * i + 1) % 2 = 1 := by omega
      simp [hended, hhalf, hodd]
  · let NoLater (a b : TaskEvent R) : Prop := a.time ≤ b.time
    have : Trans NoLater NoLater NoLater := ⟨fun hab hbc => Nat.le_trans hab hbc⟩
    refine List.isChain_iff_pairwise.mp (List.isChain_iff_getElem.mpr fun k hk => ?_)
    have ha := List.getElem?_eq_getElem (Nat.lt_of_succ_lt hk)
    have hb := List.getElem?_eq_getElem hk
    obtain ⟨i, rfl | rfl⟩ : ∃ i, k = 2 * i ∨ k = 2 * i + 1 := ⟨k / 2, by omega⟩
    · exact (hactivities i _ _ ha hb).2
    · exact Nat.le_of_eq (congrArg Time.secs (hseams i _ _ ha hb).symm)

end Reading

end DemandTransport
