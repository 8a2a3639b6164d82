import DemandTransport.Proofs.Schedule.Changes
import DemandTransport.Proofs.Schedule.InPlace

/-!
# Histories of schedules

A schedule is changed by seven kinds of calls, each of which may be refused. Whatever calls are made
on a new schedule, in any order and with any arguments, it stays valid over its horizon, and a call
that is refused leaves it exactly as it was. The only thing asked of the callers is that a task to
be inserted does not move the vehicle unless it is a drive, as all tasks are built.
-/

namespace DemandTransport

variable {R : Type}

/-- A call that may change a schedule. -/
inductive Edit (R : Type) where
  | insert (task : Task R) (index : Nat)
  | splitStayAt (t : Time)
  | insertionPoint (t : Time)
  | advance (index : Nat) (status : TaskStatus) (t : Time)
  | retractFrom (index : Nat) (energy : Option R)
  | vacate (index : Nat)
  | overrideEnergy (index : Nat) (kwh : R)

namespace Edit

/-- A task to be inserted does not move the vehicle, unless it is a drive. -/
def Stays : Edit R → Prop
  | insert task _ => task.kind.isDrive = true ∨ task.source = task.target
  | _ => True

variable [Scalar R]

/-- Make a call, whatever it answers. -/
def perform : Edit R → Action ScheduleError (Schedule R) Unit
  | insert task index => (fun _ => ()) <$> Schedule.InPlace.insert task index
  | splitStayAt t => (fun _ => ()) <$> Schedule.InPlace.splitStayAt t
  | insertionPoint t => (fun _ => ()) <$> Schedule.InPlace.insertionPoint t
  | advance index status t => (fun _ => ()) <$> Schedule.InPlace.advance index status t
  | retractFrom index energy => Schedule.InPlace.retractFrom index energy
  | vacate index => Schedule.InPlace.vacate index
  | overrideEnergy index kwh => Schedule.InPlace.overrideEnergy index kwh

/-- The schedule after some calls, each made on what the one before it left. -/
def performAll (edits : List (Edit R)) (s : Schedule R) : Schedule R :=
  edits.foldl (fun s edit => (edit.perform.outcome s).2) s

/-- A call changes a schedule as the change of its name does. -/
inductive Makes (s s' : Schedule R) : Edit R → Prop where
  | insert {task : Task R} {index given : Nat} (h : s.insert task index = .ok (given, s')) :
      Makes s s' (insert task index)
  | splitStayAt {t : Time} {parts : Nat × Nat} (h : s.splitStayAt t = .ok (parts, s')) :
      Makes s s' (splitStayAt t)
  | insertionPoint {t : Time} {index : Nat} (h : s.insertionPoint t = .ok (index, s')) :
      Makes s s' (insertionPoint t)
  | advance {index : Nat} {status : TaskStatus} {t : Time} {task : Task R}
      (h : s.advance index status t = .ok (task, s')) : Makes s s' (advance index status t)
  | retractFrom {index : Nat} {energy : Option R} (h : s.retractFrom index energy = .ok s') :
      Makes s s' (retractFrom index energy)
  | vacate {index : Nat} (h : s.vacate index = .ok s') : Makes s s' (vacate index)
  | overrideEnergy {index : Nat} {kwh : R} (h : s.overrideEnergy index kwh = .ok s') :
      Makes s s' (overrideEnergy index kwh)

/-- A call that is not refused makes its change, and one that is refused leaves the schedule as it
was: whatever it writes comes behind everything that it asks for. -/
theorem perform_ends (edit : Edit R) (s : Schedule R) :
    edit.perform.Ends s (fun _ s' => Makes s s' edit) fun _ s' => s' = s := by
  cases edit with
  | insert task index =>
    rw [perform, Schedule.InPlace.insert_eq, Action.ends_map, Action.ends_entirely]
    cases hinsert : s.insert task index with
    | ok result => exact .insert hinsert
    | error e => rfl
  | splitStayAt t =>
    rw [perform, Schedule.InPlace.splitStayAt_eq, Action.ends_map, Action.ends_entirely]
    cases hsplit : s.splitStayAt t with
    | ok result => exact .splitStayAt hsplit
    | error e => rfl
  | insertionPoint t =>
    rw [perform, Schedule.InPlace.insertionPoint_eq, Action.ends_map, Action.ends_entirely]
    cases hpoint : s.insertionPoint t with
    | ok result => exact .insertionPoint hpoint
    | error e => rfl
  | advance index status t =>
    rw [perform, Schedule.InPlace.advance_eq, Action.ends_map, Action.ends_entirely]
    cases hadvance : s.advance index status t with
    | ok result => exact .advance hadvance
    | error e => rfl
  | retractFrom index energy =>
    rw [perform, Schedule.InPlace.retractFrom_eq, Action.ends_change]
    cases hretract : s.retractFrom index energy with
    | ok s' => exact .retractFrom hretract
    | error e => rfl
  | vacate index =>
    rw [perform, Schedule.InPlace.vacate_eq, Action.ends_change]
    cases hvacate : s.vacate index with
    | ok s' => exact .vacate hvacate
    | error e => rfl
  | overrideEnergy index kwh =>
    rw [perform, Schedule.InPlace.overrideEnergy_eq, Action.ends_change]
    cases henergy : s.overrideEnergy index kwh with
    | ok s' => exact .overrideEnergy henergy
    | error e => rfl

end Edit

namespace Schedule

/-- The tasks of a valid schedule are over first, then at most one is being executed, and the others
are planned. -/
theorem Valid.exists_phases {s : Schedule R} (h : s.Valid) :
    ∃ done running waiting, s.tasks = done ++ running ++ waiting ∧
      (∀ task ∈ done, task.status = .performed) ∧
      (running.length ≤ 1 ∧ ∀ task ∈ running, task.status = .started) ∧
      ∀ task ∈ waiting, task.status = .planned := by
  let ended (task : Task R) : Bool := task.status = .performed
  have hsplit := List.takeWhile_append_dropWhile (p := ended) (l := s.tasks)
  have hdone : ∀ task ∈ s.tasks.takeWhile ended, task.status = .performed := fun task htask => by
    simpa [ended] using List.mem_takeWhile_imp htask
  cases hrest : s.tasks.dropWhile ended with
  | nil => exact ⟨_, [], [], by simpa [hrest] using hsplit.symm, hdone, by simp, by simp⟩
  | cons task rest =>
    have htask : task.status ≠ .performed := by
      have := List.head?_dropWhile_not ended s.tasks
      simpa [hrest, ended] using this
    rw [hrest] at hsplit
    have hwaiting : ∀ next ∈ rest, next.status = .planned := by
      obtain ⟨tasks⟩ := s
      have h' : Valid ⟨tasks.takeWhile ended ++ task :: rest⟩ := by rwa [hsplit]
      exact h'.planned_after htask
    cases hstatus : task.status with
    | planned =>
      exact ⟨_, [], task :: rest, by simpa using hsplit.symm, hdone, by simp,
        by simpa [hstatus] using hwaiting⟩
    | started =>
      exact ⟨_, [task], rest, by simpa using hsplit.symm, hdone, by simpa using hstatus, hwaiting⟩
    | performed => exact (htask hstatus).elim

variable [Scalar R] {s : Schedule R} {start finish : Time}

/-- A call that is made keeps a schedule valid. -/
theorem ValidOver.makes {s' : Schedule R} (h : s.ValidOver start finish) {edit : Edit R}
    (hstays : edit.Stays) (hmakes : Edit.Makes s s' edit) : s'.ValidOver start finish := by
  cases hmakes with
  | insert hinsert => exact h.insert hstays hinsert
  | splitStayAt hsplit => exact h.splitStayAt hsplit
  | insertionPoint hpoint => exact h.insertionPoint hpoint
  | advance hadvance => exact h.advance hadvance
  | retractFrom hretract => exact h.retractFrom hretract
  | vacate hvacate => exact h.vacate hvacate
  | overrideEnergy henergy => exact h.overrideEnergy henergy

/-- A call that is refused does not change a schedule, whatever it is. -/
theorem perform_refused {edit : Edit R} {e : ScheduleError} {s' : Schedule R}
    (h : edit.perform.outcome s = (.error e, s')) : s' = s :=
  (edit.perform_ends s).of_error h

/-- What a schedule has and every call that is made keeps, it has after any calls, made or
refused. -/
theorem performAll_induction {P : Schedule R → Prop} {edits : List (Edit R)}
    (hmakes : ∀ edit ∈ edits, ∀ s s', Edit.Makes s s' edit → P s → P s') (h : P s) :
    P (Edit.performAll edits s) := by
  induction edits generalizing s with
  | nil => exact h
  | cons edit rest ih =>
    have hedit : P (edit.perform.outcome s).2 := by
      refine ((edit.perform_ends s).mono (fun _ s' hmade => ?_) fun _ s' hsame => ?_).outcome
      · exact hmakes edit List.mem_cons_self s s' hmade h
      · rwa [hsame]
    exact ih (fun next hnext => hmakes next (List.mem_cons_of_mem _ hnext)) hedit

/-- Any calls, made or refused, keep a schedule valid over its horizon. -/
theorem ValidOver.performAll (h : s.ValidOver start finish) {edits : List (Edit R)}
    (hstays : ∀ edit ∈ edits, edit.Stays) :
    ValidOver (Edit.performAll edits s) start finish :=
  performAll_induction (P := fun s => s.ValidOver start finish)
    (fun edit hedit _ _ hmakes hs => hs.makes (hstays edit hedit) hmakes) h

/-- A new schedule on which any calls have been made passes the check, has its tasks in the order of
their statuses, keeps both ends of its horizon, and is left alone by every call that it refuses. -/
theorem IsNew.performAll_valid (hnew : s.IsNew start finish) {edits : List (Edit R)}
    (hstays : ∀ edit ∈ edits, edit.Stays) :
    validate (Edit.performAll edits s) = .ok () ∧
      (∃ done running waiting, (Edit.performAll edits s).tasks = done ++ running ++ waiting ∧
        (∀ task ∈ done, task.status = .performed) ∧
        (running.length ≤ 1 ∧ ∀ task ∈ running, task.status = .started) ∧
        ∀ task ∈ waiting, task.status = .planned) ∧
      Schedule.start (Edit.performAll edits s) = start ∧
      Schedule.finish (Edit.performAll edits s) = finish ∧
      ∀ (edit : Edit R) (e : ScheduleError) (s' : Schedule R),
        edit.perform.outcome (Edit.performAll edits s) = (.error e, s') →
          s' = Edit.performAll edits s := by
  have h := hnew.validOver.performAll hstays
  exact ⟨validate_eq_ok_iff.mpr h.toValid, h.toValid.exists_phases, h.begins, h.ends,
    fun _ _ _ => perform_refused⟩

/-- A stay of a hundred seconds is given a charging session, cut, begun and cleared, and refuses a
task that begins too late. -/
theorem IsNew.performAll_valid_hundred_seconds :
    let start : Time := .zero
    let finish : Time := .ofSecs 100
    let s : Schedule Rat := ⟨[Task.stay ⟨0⟩ start finish]⟩
    let edits : List (Edit Rat) :=
      [.insert (Task.charge ⟨1⟩ ⟨0⟩ start (.ofSecs 40)) 0, .splitStayAt (.ofSecs 50),
        .insert (Task.charge ⟨1⟩ ⟨0⟩ (.ofSecs 60) (.ofSecs 80)) 2, .advance 0 .started start,
        .overrideEnergy 0 3, .retractFrom 2 none, .vacate 1, .insertionPoint (.ofSecs 70)]
    s.IsNew start finish ∧ (∀ edit ∈ edits, edit.Stays) ∧
      validate (Edit.performAll edits s) = .ok () ∧ (Edit.performAll edits s).size = 4 := by
  intro start finish s edits
  have hnew : s.IsNew start finish := ⟨⟨0⟩, .inl rfl⟩
  have hstays : ∀ edit ∈ edits, edit.Stays := by simp [edits, Edit.Stays, Task.charge]
  exact ⟨hnew, hstays, (hnew.performAll_valid hstays).1, by decide⟩

end Schedule

end DemandTransport
