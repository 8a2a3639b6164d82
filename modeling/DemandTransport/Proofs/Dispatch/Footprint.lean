import DemandTransport.Dispatch.Charging
import DemandTransport.Proofs.Action
import DemandTransport.Proofs.Schedule.Changes
import DemandTransport.Proofs.Schedule.Chronicle
import DemandTransport.Proofs.Schedule.InPlace
import Mathlib.Data.List.Perm.Subperm

/-!
# What a schedule holds of the chargers

A schedule books plugs by its charging tasks that are not over, and what is being executed shows in
its started tasks. Planning adds at most the bookings of the new tasks and never touches a task that
has been started, whether it succeeds or breaks off half-way. So what has happened so far can always
be read off the schedule.
-/

namespace DemandTransport

variable {R : Type} {grid : StepGrid}

/-- The booking of a task that charges and is not over. -/
def Booking.ofOpen? (grid : StepGrid) (task : Task R) : Option Booking :=
  if task.status = .performed then none else ofTask? grid task

/-- Only charging tasks book plugs. -/
theorem Booking.ofTask?_eq_none {task : Task R} (h : ∀ charger, task.kind ≠ .charge charger) :
    ofTask? grid task = none := by
  unfold ofTask?
  cases hkind : task.kind with
  | charge charger => exact (h charger hkind).elim
  | stay _ | drive _ | pickup _ | dropoff _ => rfl

/-- What is being executed and since when it was to be. -/
def Task.underway? (task : Task R) : Option (TaskKind R × Time) :=
  if task.status = .started then some (task.kind, task.start) else none

namespace Schedule

/-- The plugs that a schedule books. -/
def bookings (grid : StepGrid) (s : Schedule R) : List Booking :=
  s.tasks.filterMap (Booking.ofOpen? grid)

/-- What is being executed in a schedule. -/
def underway (s : Schedule R) : List (TaskKind R × Time) := s.tasks.filterMap Task.underway?

/-- What is booked is booked by a charging task that is not over. -/
theorem mem_bookings {s : Schedule R} {booking : Booking} :
    booking ∈ s.bookings grid ↔ ∃ task ∈ s.tasks, task.status ≠ .performed ∧
      ∃ charger, task.kind = .charge charger ∧
        booking = .ofSession grid charger task.start task.finish := by
  rw [bookings, List.mem_filterMap]
  refine exists_congr fun task => and_congr_right fun _ => ?_
  unfold Booking.ofOpen? Booking.ofTask?
  by_cases hdone : task.status = .performed
  · simp [hdone]
  · cases task.kind <;> simp [hdone, eq_comm]

/-- What is read off the tasks that are not over is read off the tasks. -/
theorem unperformed_filterMap {β : Type} (f : Task R → Option β) (s : Schedule R) :
    s.unperformed.filterMap (fun entry => f entry.2) =
      s.tasks.filterMap fun task => if task.status = .performed then none else f task := by
  have hfrom (tasks : List (Task R)) (n : Nat) :
      ((tasks.zipIdx n).filterMap fun entry =>
          if entry.1.status = .performed then none else some (entry.2, entry.1)).filterMap
        (fun entry => f entry.2) =
      tasks.filterMap fun task => if task.status = .performed then none else f task := by
    induction tasks generalizing n with
    | nil => rfl
    | cons task rest ih =>
      by_cases hdone : task.status = .performed
      · simpa [hdone] using ih (n + 1)
      · simp only [List.zipIdx_cons, List.filterMap_cons, hdone, if_false, ih (n + 1)]
  exact hfrom s.tasks 0

/-- The bookings of a fleet are those of its schedules. -/
theorem ofFleet_eq (fleet : Fleet R) :
    Booking.ofFleet grid fleet = fleet.vehicles.flatMap fun v => v.schedule.bookings grid := by
  unfold Booking.ofFleet bookings
  congr 1
  funext v
  exact unperformed_filterMap (Booking.ofTask? grid) v.schedule

@[simp] theorem bookings_append (a b : List (Task R)) :
    bookings grid ⟨a ++ b⟩ = bookings grid ⟨a⟩ ++ bookings grid ⟨b⟩ :=
  List.filterMap_append

@[simp] theorem underway_append (a b : List (Task R)) :
    underway ⟨a ++ b⟩ = underway ⟨a⟩ ++ underway ⟨b⟩ :=
  List.filterMap_append

theorem bookings_cons (task : Task R) (rest : List (Task R)) :
    bookings grid ⟨task :: rest⟩ = bookings grid ⟨[task]⟩ ++ bookings grid ⟨rest⟩ :=
  bookings_append [task] rest

theorem underway_cons (task : Task R) (rest : List (Task R)) :
    underway ⟨task :: rest⟩ = underway ⟨[task]⟩ ++ underway ⟨rest⟩ :=
  underway_append [task] rest

/-- Without a charging task nothing is booked. -/
theorem bookings_eq_nil {tasks : List (Task R)} (h : ∀ task ∈ tasks, ∀ c, task.kind ≠ .charge c) :
    bookings grid ⟨tasks⟩ = [] := by
  refine List.filterMap_eq_nil_iff.mpr fun task htask => ?_
  unfold Booking.ofOpen?
  split
  · rfl
  · exact Booking.ofTask?_eq_none (h task htask)

/-- Only started tasks are being executed. -/
theorem underway_eq_nil {tasks : List (Task R)} (h : ∀ task ∈ tasks, task.status ≠ .started) :
    underway ⟨tasks⟩ = [] :=
  List.filterMap_eq_nil_iff.mpr fun task htask => if_neg (h task htask)

/-- A schedule after planning: still valid, with some bookings added at most, the same tasks being
executed, and the same past. -/
structure Replanned (grid : StepGrid) (added : List Booking) (s s' : Schedule R) : Prop where
  /-- Planning keeps validity and the horizon. -/
  valid : ∀ {start finish : Time}, s.ValidOver start finish → s'.ValidOver start finish
  /-- All bookings are old ones or the added ones. -/
  books : (s'.bookings grid).Subperm (added ++ s.bookings grid)
  /-- What is being executed goes on. -/
  executes : s'.underway = s.underway
  /-- Nothing happens. -/
  tells : s.Valid → s'.occurrences = s.occurrences

/-- A schedule that is left alone adds no booking. -/
theorem Replanned.refl (s : Schedule R) : Replanned grid [] s s :=
  ⟨id, .refl _, rfl, fun _ => rfl⟩

/-- What is added one after the other is added altogether. -/
theorem Replanned.trans {a b : List Booking} {s t u : Schedule R} (h : Replanned grid a s t)
    (h' : Replanned grid b t u) : Replanned grid (b ++ a) s u where
  valid hs := h'.valid (h.valid hs)
  books := by
    rw [List.append_assoc]
    exact h'.books.trans ((List.subperm_append_left b).mpr h.books)
  executes := h'.executes.trans h.executes
  tells hs := (h'.tells (h.valid ⟨hs, rfl, rfl⟩).toValid).trans (h.tells hs)

/-- Planning that adds less adds no more. -/
theorem Replanned.weaken {a b : List Booking} {s t : Schedule R} (h : Replanned grid a s t)
    (hsub : a.Subperm b) : Replanned grid b s t :=
  ⟨h.valid, h.books.trans ((List.subperm_append_right _).mpr hsub), h.executes, h.tells⟩

/-! ## Changes of planned tasks -/

theorem bookings_of_open {task : Task R} (h : task.status ≠ .performed) :
    bookings grid ⟨[task]⟩ = (Booking.ofTask? grid task).toList := by
  unfold bookings Booking.ofOpen?
  rw [List.filterMap_cons, if_neg h]
  cases Booking.ofTask? grid task <;> rfl

theorem bookings_stay {task : Task R} (h : task.isStay = true) : bookings grid ⟨[task]⟩ = [] := by
  obtain ⟨charger, hkind⟩ := Task.kind_of_isStay h
  exact bookings_eq_nil (by simp [hkind])

/-- Tasks in the place of others change the bookings and what is being executed there only, and they
have the same past where everything behind them is planned. -/
theorem Replanned.of_fits {before old mid after : List (Task R)} {added : List Booking}
    (hne : old ≠ []) (hfits : Fits before old mid after)
    (hbooks : (bookings grid ⟨mid⟩).Subperm (added ++ bookings grid ⟨old⟩))
    (hexecutes : underway ⟨mid⟩ = underway ⟨old⟩)
    (htells : ∀ index, occurrencesFrom index mid = occurrencesFrom index old)
    (hafter : Valid ⟨before ++ old ++ after⟩ → ∀ task ∈ after, task.status = .planned) :
    Replanned grid added ⟨before ++ old ++ after⟩ ⟨before ++ mid ++ after⟩ where
  valid hs := hs.replace hne hfits
  books := by
    simp only [bookings_append]
    have hfront : (bookings grid ⟨before⟩ ++ bookings grid ⟨mid⟩).Subperm
        (added ++ (bookings grid ⟨before⟩ ++ bookings grid ⟨old⟩)) := by
      refine ((List.subperm_append_left _).mpr hbooks).trans (List.Perm.subperm ?_)
      simp only [← List.append_assoc]
      exact List.perm_append_comm.append_right _
    rw [← List.append_assoc]
    exact (List.subperm_append_right _).mpr hfront
  executes := by simp only [underway_append, hexecutes]
  tells hs := by
    simp only [occurrences, occurrencesFrom_append, occurrencesFrom_planned (hafter hs), htells]

variable [Scalar R]

/-- Inserting a task adds its booking. -/
theorem insert_replanned {s s' : Schedule R} {task : Task R} {index given : Nat}
    (hstays : task.kind.isDrive = true ∨ task.source = task.target)
    (h : s.insert task index = .ok (given, s')) :
    Replanned grid (Booking.ofTask? grid task).toList s s' := by
  obtain ⟨before, stay, after, htasks, -, hcarves, -, rfl⟩ := insert_ok h
  obtain ⟨⟩ := s
  subst htasks
  have hwaiting : ∀ left ∈ remainder stay task, left.status = .planned := fun left hleft =>
    (of_mem_remainder hleft).2.trans hcarves.waiting
  have hplanned : ∀ t ∈ [task] ++ remainder stay task, t.status = .planned :=
    List.forall_mem_cons.mpr ⟨hcarves.fresh, hwaiting⟩
  have hrest : bookings grid ⟨remainder stay task⟩ = [] ∧ underway ⟨remainder stay task⟩ = [] := by
    refine ⟨bookings_eq_nil fun left hleft => ?_, underway_eq_nil fun left hleft => ?_⟩
    · obtain ⟨charger, hkind⟩ := Task.kind_of_isStay (of_mem_remainder hleft).1
      simp [hkind]
    · simp [hwaiting left hleft]
  have hnew : Replanned grid (Booking.ofTask? grid task).toList ⟨before ++ [stay] ++ after⟩
      ⟨before ++ ([task] ++ remainder stay task) ++ after⟩ := by
    refine .of_fits (by simp) (fits_of_carves hcarves hstays) ?_ ?_ (fun index => ?_) fun hs => ?_
    · rw [bookings_append, hrest.1, bookings_stay hcarves.idle,
        bookings_of_open (by simp [hcarves.fresh])]
    · rw [underway_append, hrest.2, underway_eq_nil (by simp [hcarves.fresh]),
        underway_eq_nil (by simp [hcarves.waiting])]
      rfl
    · rw [occurrencesFrom_planned hplanned, occurrencesFrom_planned (by simp [hcarves.waiting])]
    · rw [List.append_assoc] at hs
      exact hs.planned_after (by simp [hcarves.waiting])
  simpa using hnew

/-- Splitting idle time adds nothing. -/
theorem ValidOver.splitStayAt_replanned {s s' : Schedule R} {start finish t : Time}
    {parts : Nat × Nat} (hs : s.ValidOver start finish)
    (h : s.splitStayAt t = .ok (parts, s')) : Replanned grid [] s s' := by
  obtain ⟨before, stay, after, htasks, hcovers, hsplits, -, rfl⟩ := hs.toValid.splitStayAt_ok h
  obtain ⟨⟩ := s
  subst htasks
  have hsound : stay.Sound := hs.sound stay (by simp)
  have hstays := hsound.stays.resolve_left (by simp [Task.not_isDrive hsplits.idle])
  have hnew : Replanned grid [] ⟨before ++ [stay] ++ after⟩
      ⟨before ++ ([stay.headUntil t] ++ [stay.tailFrom t]) ++ after⟩ := by
    refine .of_fits (by simp) (fits_of_splits hsplits hcovers hstays) ?_ ?_ (fun index => ?_)
      fun hs => ?_
    · have hhead : bookings grid ⟨[stay.headUntil t]⟩ = [] := bookings_stay hsplits.idle
      have htail : bookings grid ⟨[stay.tailFrom t]⟩ = [] := bookings_stay hsplits.idle
      rw [bookings_append, hhead, htail]
      exact List.nil_subperm
    · have hhead : underway ⟨[stay.headUntil t]⟩ = underway ⟨[stay]⟩ := rfl
      have htail : underway ⟨[stay.tailFrom t]⟩ = [] := underway_eq_nil (by simp [Task.tailFrom])
      rw [underway_append, hhead, htail, List.append_nil]
    · have htail : ∀ task ∈ [stay.tailFrom t], task.status = .planned := by simp [Task.tailFrom]
      rw [occurrencesFrom_append, occurrencesFrom_planned htail, List.append_nil]
      exact occurrencesFrom_congr rfl rfl rfl hsplits.unfinished
    · rw [List.append_assoc] at hs
      exact hs.planned_after hsplits.unfinished
  simpa using hnew

/-- Making room for new tasks adds no booking. -/
theorem ValidOver.insertionPoint_replanned {s s' : Schedule R} {start finish t : Time}
    {index : Nat} (hs : s.ValidOver start finish) (h : s.insertionPoint t = .ok (index, s')) :
    Replanned grid [] s s' := by
  rcases hs.toValid.insertionPoint_ok h with ⟨-, -, -, -, -, -, -, -, rfl⟩ | ⟨first, hsplit⟩
  · exact .refl _
  · exact hs.splitStayAt_replanned hsplit

omit [Scalar R] in
/-- Taking work back takes bookings away at most. -/
theorem retractFrom_replanned {s s' : Schedule R} {index : Nat} {energy : Option R}
    (h : s.retractFrom index energy = .ok s') : Replanned grid [] s s' := by
  refine ⟨fun hs => hs.retractFrom h, ?_, ?_, fun _ => ?_⟩
  all_goals
    obtain ⟨before, first, after, htasks, -, hplanned, rfl⟩ := retractFrom_ok h
    obtain ⟨⟩ := s
    subst htasks
  · rw [bookings_append, bookings_append, bookings_stay (by rfl), List.append_nil]
    exact (List.sublist_append_left _ _).subperm
  · have hnew :
        underway ⟨[reclaimed before first (finish ⟨before ++ first :: after⟩) energy]⟩ = [] :=
      underway_eq_nil (by simp [reclaimed, Task.stay])
    have hold : underway ⟨first :: after⟩ = [] :=
      underway_eq_nil fun task htask => by simp [hplanned task htask]
    rw [underway_append, underway_append, hnew, hold]
  · have hnew : ∀ task ∈ [reclaimed before first (finish ⟨before ++ first :: after⟩) energy],
        task.status = .planned := by simp [reclaimed, Task.stay]
    rw [occurrences, occurrences, occurrencesFrom_append, occurrencesFrom_append,
      occurrencesFrom_planned hplanned, occurrencesFrom_planned hnew]

omit [Scalar R] in
/-- So does turning a task into idle time. -/
theorem vacate_replanned {s s' : Schedule R} {index : Nat} (h : s.vacate index = .ok s') :
    Replanned grid [] s s' := by
  refine ⟨fun hs => hs.vacate h, ?_, ?_, fun hs => ?_⟩
  all_goals
    obtain ⟨before, task, after, htasks, -, hplanned, -, rfl⟩ := vacate_ok h
    obtain ⟨⟩ := s
    subst htasks
  · rw [bookings_append, bookings_append, bookings_cons, bookings_cons task,
      bookings_stay (by rfl), List.nil_append]
    exact (List.subperm_append_left _).mpr (List.sublist_append_right _ _).subperm
  · have hnew : underway ⟨[{ task with kind := .stay none }]⟩ = [] :=
      underway_eq_nil (by simp [hplanned])
    have hold : underway ⟨[task]⟩ = [] := underway_eq_nil (by simp [hplanned])
    rw [underway_append, underway_append, underway_cons, underway_cons task, hnew, hold]
  · have hafter := hs.planned_after (by simp [hplanned])
    have hnew : ∀ next ∈ { task with kind := .stay none } :: after, next.status = .planned :=
      List.forall_mem_cons.mpr ⟨hplanned, hafter⟩
    have hold : ∀ next ∈ task :: after, next.status = .planned :=
      List.forall_mem_cons.mpr ⟨hplanned, hafter⟩
    rw [occurrences, occurrences, occurrencesFrom_append, occurrencesFrom_append,
      occurrencesFrom_planned hnew, occurrencesFrom_planned hold]

/-! ## Planning as a whole -/

/-- Writing tasks into a schedule adds their bookings at most, even if it breaks off. -/
theorem insertFrom_replanned {s : Schedule R} {index : Nat} {tasks : List (Task R)}
    (hstays : ∀ task ∈ tasks, task.kind.isDrive = true ∨ task.source = task.target) :
    (insertFrom index tasks).Ends s
      (fun _ s' => Replanned grid (tasks.filterMap (Booking.ofTask? grid)) s s')
      fun _ s' => Replanned grid (tasks.filterMap (Booking.ofTask? grid)) s s' := by
  induction tasks generalizing s index with
  | nil => exact .refl _
  | cons task rest ih =>
    simp only [insertFrom, Action.ends_bind, InPlace.insert_eq, Action.ends_entirely]
    cases hinsert : s.insert task index with
    | error e => exact (Replanned.refl s).weaken List.nil_subperm
    | ok made =>
      obtain ⟨given, s'⟩ := made
      have hone : Replanned grid (Booking.ofTask? grid task).toList s s' :=
        insert_replanned (hstays task List.mem_cons_self) hinsert
      have hall {t : Schedule R}
          (h : Replanned grid (rest.filterMap (Booking.ofTask? grid)) s' t) :
          Replanned grid ((task :: rest).filterMap (Booking.ofTask? grid)) s t := by
        refine (hone.trans h).weaken (List.Perm.subperm ?_)
        rw [← List.singleton_append, List.filterMap_append]
        refine List.perm_append_comm.trans (.append_right _ (.of_eq ?_))
        cases hbooking : Booking.ofTask? grid task <;> simp [hbooking]
      exact (ih fun next hnext => hstays next (List.mem_cons_of_mem _ hnext)).mono
        (fun _ _ => hall) fun _ _ => hall

/-- Inserting tasks adds no more than their bookings, even if it breaks off. -/
theorem ValidOver.insertAt_replanned {s : Schedule R} {start finish depart : Time}
    {tasks : List (Task R)} (hs : s.ValidOver start finish)
    (hstays : ∀ task ∈ tasks, task.kind.isDrive = true ∨ task.source = task.target) :
    (insertAt depart tasks).Ends s
      (fun _ s' => Replanned grid (tasks.filterMap (Booking.ofTask? grid)) s s')
      fun _ s' => Replanned grid (tasks.filterMap (Booking.ofTask? grid)) s s' := by
  simp only [insertAt, InPlace.insertionPoint_eq, Action.ends_bind, Action.ends_entirely]
  cases hpoint : s.insertionPoint depart with
  | error e => exact (Replanned.refl s).weaken List.nil_subperm
  | ok result =>
    obtain ⟨index, s'⟩ := result
    have hall {t : Schedule R}
        (h : Replanned grid (tasks.filterMap (Booking.ofTask? grid)) s' t) :
        Replanned grid (tasks.filterMap (Booking.ofTask? grid)) s t := by
      simpa using (hs.insertionPoint_replanned hpoint).trans h
    exact (insertFrom_replanned hstays).mono (fun _ _ => hall) fun _ _ => hall

end Schedule

namespace Vehicle

/-- A vehicle after planning, in which only the schedule may have changed. -/
structure Replanned (grid : StepGrid) (added : List Booking) (v v' : Vehicle R) : Prop where
  /-- It is the same vehicle. -/
  same : v' = { v with schedule := v'.schedule }
  /-- Its schedule has been planned. -/
  schedule : v.schedule.Replanned grid added v'.schedule

theorem Replanned.refl (v : Vehicle R) : Replanned grid [] v v := ⟨rfl, .refl _⟩

theorem Replanned.of_schedule {added : List Booking} {v : Vehicle R} {s' : Schedule R}
    (h : v.schedule.Replanned grid added s') :
    Replanned grid added v { v with schedule := s' } := ⟨rfl, h⟩

theorem Replanned.trans {a b : List Booking} {v w u : Vehicle R} (h : Replanned grid a v w)
    (h' : Replanned grid b w u) : Replanned grid (b ++ a) v u :=
  ⟨h'.same.trans (by rw [h.same]), h.schedule.trans h'.schedule⟩

variable [Scalar R] {v : Vehicle R}

/-- Giving work to a vehicle adds its bookings at most, even if it breaks off. -/
theorem insertAt_replanned {start finish depart : Time} {tasks : List (Task R)}
    (hv : v.schedule.ValidOver start finish)
    (hstays : ∀ task ∈ tasks, task.kind.isDrive = true ∨ task.source = task.target) :
    (insertAt depart tasks).Ends v
      (fun _ v' => Replanned grid (tasks.filterMap (Booking.ofTask? grid)) v v')
      fun _ v' => Replanned grid (tasks.filterMap (Booking.ofTask? grid)) v v' := by
  simp only [insertAt, onSchedule, Action.ends_bind, Action.ends_get, Action.ends_mapError,
    Action.ends_within]
  exact (hv.insertAt_replanned hstays).mono (fun _ _ => .of_schedule) fun _ _ => .of_schedule

/-- Taking a request back adds no booking, even if it breaks off. -/
theorem retract_replanned (request : RequestId) :
    (retract request).Ends v (fun _ v' => Replanned grid [] v v')
      fun _ v' => Replanned grid [] v v' := by
  simp only [retract, Action.ends_bind, Action.ends_get]
  cases v.tripOf request with
  | error fault => exact .refl v
  | ok trip =>
    simp only [removeTrip, Action.ends_mapError, Action.ends_bind, Action.ends_get]
    split
    · simp only [onSchedule, Schedule.InPlace.retractFrom_eq, Action.ends_within,
        Action.ends_change]
      split
      · exact .of_schedule (Schedule.retractFrom_replanned ‹_›)
      · exact .refl v
    · simp only [onSchedule, Schedule.InPlace.vacate_eq, Action.ends_bind, Action.ends_within,
        Action.ends_change]
      split
      · have hpickup : Replanned grid [] v { v with schedule := _ } :=
          .of_schedule (Schedule.vacate_replanned ‹_›)
        split
        · exact hpickup.trans (.of_schedule (Schedule.vacate_replanned ‹_›))
        · exact hpickup
      · exact .refl v

end Vehicle

end DemandTransport
