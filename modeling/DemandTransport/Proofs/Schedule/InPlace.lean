import DemandTransport.Proofs.Action
import DemandTransport.Proofs.Schedule.Editing
import DemandTransport.Schedule.InPlace

/-!
# Changes in place are made entirely or not at all

A program that changes a schedule where it is kept asks, refuses and writes, in this order. So where
it fails it has written nothing, and where it does not it leaves the schedule that the change of the
same name gives. From here on the changes themselves are reasoned about.
-/

namespace DemandTransport.Schedule

variable {R : Type}

/-- Writing one task to an index puts it in the place of the one there. -/
theorem splice_one {s : Schedule R} {index : Nat} (h : index < s.tasks.length) (task : Task R) :
    s.splice index [task] = ⟨s.tasks.set index task⟩ := by
  rw [splice, List.set_eq_take_append_cons_drop, if_pos h]
  simp

/-- Two tasks take the place of one by writing either of them there and putting the other one before
or behind it. -/
theorem splice_two {s : Schedule R} {index : Nat} (h : index < s.tasks.length)
    (first second : Task R) :
    s.splice index [first, second] = ⟨(s.tasks.set index second).insertIdx index first⟩ ∧
      s.splice index [first, second] =
        ⟨(s.tasks.set index first).insertIdx (index + 1) second⟩ := by
  obtain ⟨tasks⟩ := s
  change index < tasks.length at h
  simp only [splice, Schedule.mk.injEq]
  induction tasks generalizing index with
  | nil => simp at h
  | cons head rest ih =>
    cases index with
    | zero => simp
    | succ index => simpa using ih (by simpa using h)

theorem lt_length_of_get {s : Schedule R} {index : Nat} {task : Task R}
    (h : s.get index = .ok task) : index < s.tasks.length := by
  obtain ⟨before, after, htasks, rfl⟩ := get_ok h
  simp [htasks]

namespace InPlace

/-- A task is advanced entirely or not at all. -/
theorem advance_eq (index : Nat) (status : TaskStatus) (t : Time) :
    advance index status t = Action.entirely fun s : Schedule R => s.advance index status t := by
  funext s
  simp only [advance, Schedule.advance, Action.entirely, Action.run_ask_bind, Action.run_get_bind]
  cases hget : s.get index with
  | error e => rfl
  | ok task =>
    cases hblocking : s.blocking? index status with
    | some previous =>
      simp only [bind, Except.bind]
      rfl
    | none =>
      simp only [Action.run_ask_bind]
      cases hadvance : task.advance status t with
      | error e => simp only [bind, Except.bind, hadvance]
      | ok task' =>
        simp only [bind, Except.bind, hadvance]
        rfl

/-- Tasks are given back entirely or not at all. -/
theorem retractFrom_eq (index : Nat) (energy : Option R) :
    retractFrom index energy = Action.change fun s => s.retractFrom index energy := by
  funext s
  simp only [retractFrom, Schedule.retractFrom, Action.change, Action.run_ask_bind,
    Action.run_get_bind]
  cases hget : s.get index with
  | error e => rfl
  | ok first =>
    simp only [bind, Except.bind]
    cases firstBegun? index (s.tasks.drop index) <;> rfl

/-- A task is turned into idle time entirely or not at all. -/
theorem vacate_eq (index : Nat) :
    vacate index = Action.change fun s : Schedule R => s.vacate index :=
  Action.guarded_eq_change fun _ _ _ => rfl

/-- The energy of a task is set entirely or not at all. -/
theorem overrideEnergy_eq (index : Nat) (kwh : R) :
    overrideEnergy index kwh = Action.change fun s => s.overrideEnergy index kwh :=
  Action.guarded_eq_change fun _ _ _ => rfl

variable [Scalar R]

/-- A task is inserted entirely or not at all. -/
theorem insert_eq (task : Task R) (index : Nat) :
    insert task index = Action.entirely fun s => s.insert task index := by
  funext s
  simp only [insert, Schedule.insert, Action.entirely, Action.run_get_bind]
  cases hget : s.tasks[index]? with
  | none => rfl
  | some stay =>
    have hindex : index < s.tasks.length := (List.getElem?_eq_some_iff.mp hget).1
    cases hfault : s.insertFault? index stay task with
    | some fault =>
      simp only [hfault]
      rfl
    | none =>
      simp only [hfault]
      by_cases hall : task.finish = stay.finish
      · rw [if_pos hall, remainder, if_pos hall, splice_one hindex]
        rfl
      · rw [if_neg hall, remainder, if_neg hall, (splice_two hindex _ _).1]
        rfl

/-- An insertion that is made gives the index and leaves the schedule that come with the change. -/
theorem insert_eq_ok_iff {task : Task R} {index given : Nat} {s s' : Schedule R} :
    insert task index s = .ok given s' ↔ s.insert task index = .ok (given, s') := by
  rw [insert_eq, Action.entirely]
  cases s.insert task index <;> simp [Prod.ext_iff]

/-- Idle time is split entirely or not at all. -/
theorem splitStayAt_eq (t : Time) :
    splitStayAt t = Action.entirely fun s : Schedule R => s.splitStayAt t := by
  funext s
  simp only [splitStayAt, Schedule.splitStayAt, Action.entirely, Action.run_ask_bind]
  cases hcurrent : s.current t with
  | error e => rfl
  | ok found =>
    obtain ⟨index, stay⟩ := found
    have hindex := lt_length_of_get (get_of_current hcurrent)
    cases hfault : splitFault? stay t with
    | some fault =>
      simp only [bind, Except.bind, hfault]
      rfl
    | none =>
      simp only [bind, Except.bind, hfault, (splice_two hindex _ _).2]
      rfl

/-- A place for work is made entirely or not at all. -/
theorem insertionPoint_eq (t : Time) :
    insertionPoint t = Action.entirely fun s : Schedule R => s.insertionPoint t := by
  funext s
  simp only [insertionPoint, Schedule.insertionPoint, Action.entirely, Action.run_ask_bind]
  cases hcurrent : s.current t with
  | error e => rfl
  | ok found =>
    obtain ⟨index, task⟩ := found
    simp only [bind, Except.bind]
    by_cases hstart : task.start = t
    · rw [if_pos hstart, if_pos hstart]
      split <;> rfl
    · rw [if_neg hstart, if_neg hstart, splitStayAt_eq]
      simp only [EStateM.bind, Action.entirely]
      cases s.splitStayAt t <;> rfl

end InPlace

end DemandTransport.Schedule
