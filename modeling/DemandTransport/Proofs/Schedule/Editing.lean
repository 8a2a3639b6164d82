import DemandTransport.Proofs.Schedule.Validity
import DemandTransport.Schedule.Edit
import Mathlib.Data.List.Enum
import Mathlib.Data.List.TakeWhile

/-!
# What changes of a schedule do

A change that is made replaces the tasks at one place, and the rest of the schedule stays as it is.
For each change there is one lemma that tells everything about it: what it found at that place,
under which conditions it was made, and which schedule came out.
-/

namespace DemandTransport.Schedule

variable {R : Type}

/-! ## Looking up an instant -/

section Covers

variable {before after : List (Task R)} {task : Task R} {t : Time}

/-- All tasks up to one that covers an instant have begun by then. -/
theorem Valid.start_le_of_covers (h : Valid ⟨before ++ task :: after⟩) (hcovers : task.Covers t) :
    ∀ a ∈ before ++ [task], a.start ≤ t := by
  intro a ha
  rcases List.mem_append.mp ha with ha | ha
  · have htime := (h.earlier.1 a ha).1
    have hlasts := (h.sound a (by simp [ha])).lasts
    have hstart := hcovers.1
    simp only [Time.le_iff, Time.lt_iff] at *
    omega
  · rw [List.mem_singleton.mp ha]
    exact hcovers.1

/-- The tasks behind it begin later. -/
theorem Valid.lt_start_of_covers (h : Valid ⟨before ++ task :: after⟩) (hcovers : task.Covers t) :
    ∀ b ∈ after, t < b.start := by
  intro b hb
  have htime := (h.earlier.2 b hb).1
  have hfinish := hcovers.2
  simp only [Time.le_iff, Time.lt_iff] at *
  omega

/-- An instant that a task covers lies within the horizon. -/
theorem Valid.horizon_of_covers (h : Valid ⟨before ++ task :: after⟩) (hcovers : task.Covers t) :
    Schedule.start ⟨before ++ task :: after⟩ ≤ t ∧
      t < Schedule.finish ⟨before ++ task :: after⟩ := by
  constructor
  · cases before with
    | nil => exact hcovers.1
    | cons first rest => exact h.start_le_of_covers hcovers first (by simp)
  · cases hlast : after.getLast? with
    | none =>
      obtain rfl := List.getLast?_eq_none_iff.mp hlast
      simpa using hcovers.2
    | some last =>
      have hmem := List.mem_of_getLast? hlast
      have htime := h.lt_start_of_covers hcovers last hmem
      have hlasts := (h.sound last (by simp [hmem])).lasts
      simp only [Schedule.finish, List.getLast?_append, List.getLast?_cons, hlast, Time.lt_iff,
        Option.getD_some, Option.some_or, Option.map_some] at *
      omega

/-- Looking up an instant gives the index of the task that covers it. -/
theorem Valid.currentIndex_eq (h : Valid ⟨before ++ task :: after⟩) (hcovers : task.Covers t) :
    currentIndex ⟨before ++ task :: after⟩ t = .ok before.length := by
  have hinside : ¬(t < Schedule.start ⟨before ++ task :: after⟩ ∨
      Schedule.finish ⟨before ++ task :: after⟩ ≤ t) := by
    have hhorizon := h.horizon_of_covers hcovers
    simp only [Time.le_iff, Time.lt_iff] at *
    omega
  have hcount : bisect (fun task : Task R => decide (task.start ≤ t)) (before ++ task :: after) =
      before.length + 1 := by
    have hborder : bisect (fun task : Task R => decide (task.start ≤ t))
        ((before ++ [task]) ++ after) = (before ++ [task]).length :=
      bisect_append (fun a ha => decide_eq_true (h.start_le_of_covers hcovers a ha)) fun b hb =>
        decide_eq_false (Nat.not_le_of_lt (h.lt_start_of_covers hcovers b hb))
    simpa using hborder
  unfold currentIndex
  rw [if_neg hinside, hcount]
  rfl

end Covers

/-- Behind a task that begins after an instant all tasks do. -/
theorem Valid.later_of_mem_dropWhile {s : Schedule R} (h : s.Valid) {t : Time} {task : Task R}
    (htask : task ∈ s.tasks.dropWhile fun task => decide (task.start ≤ t)) : t < task.start := by
  cases hrest : s.tasks.dropWhile fun task => decide (task.start ≤ t) with
  | nil => simp [hrest] at htask
  | cons next rest =>
    have hnext : t < next.start := by
      have hhead := List.head?_dropWhile_not (fun task : Task R => decide (task.start ≤ t)) s.tasks
      simp only [hrest, List.head?_cons, decide_eq_false_iff_not] at hhead
      exact Nat.lt_of_not_le hhead
    have hsuffix : (next :: rest).Sublist s.tasks := hrest ▸ List.dropWhile_sublist _
    have hearlier := (List.pairwise_cons.mp (h.pairwise_earlier.sublist hsuffix)).1
    rw [hrest] at htask
    rcases List.mem_cons.mp htask with rfl | hbehind
    · exact hnext
    · have htime := (hearlier task hbehind).1
      have hlasts := (h.sound next (hsuffix.subset List.mem_cons_self)).lasts
      simp only [Time.le_iff, Time.lt_iff] at *
      omega

/-- Some task covers an instant of the horizon, and looking it up gives its index. -/
theorem Valid.exists_current {s : Schedule R} (h : s.Valid) {t : Time} (hstart : s.start ≤ t)
    (hfinish : t < s.finish) :
    ∃ before task after, s.tasks = before ++ task :: after ∧ task.Covers t ∧
      s.currentIndex t = .ok before.length := by
  suffices hcovering : ∃ before task after, s.tasks = before ++ task :: after ∧ task.Covers t by
    obtain ⟨before, task, after, htasks, hcovers⟩ := hcovering
    refine ⟨before, task, after, htasks, hcovers, ?_⟩
    obtain ⟨⟩ := s
    subst htasks
    exact h.currentIndex_eq hcovers
  let begun (task : Task R) : Bool := task.start ≤ t
  have hsplit := List.takeWhile_append_dropWhile (p := begun) (l := s.tasks)
  have hbegun : ∀ a ∈ s.tasks.takeWhile begun, begun a = true := fun a ha =>
    List.mem_takeWhile_imp ha
  have hne : s.tasks.takeWhile begun ≠ [] := by
    intro hnil
    cases htasks : s.tasks with
    | nil => exact h.nonempty htasks
    | cons task rest =>
      have hfirst : begun task = true := by
        simpa [begun, Schedule.start, htasks] using hstart
      rw [htasks, List.takeWhile_cons_of_pos hfirst] at hnil
      exact List.cons_ne_nil _ _ hnil
  obtain ⟨before, task, hlast⟩ : ∃ before task, s.tasks.takeWhile begun = before ++ [task] :=
    ⟨_, _, (List.dropLast_append_getLast hne).symm⟩
  have htasks : s.tasks = before ++ task :: s.tasks.dropWhile begun := by
    rw [← List.singleton_append, ← List.append_assoc, ← hlast, hsplit]
  refine ⟨before, task, _, htasks, ?_, ?_⟩
  · simpa [begun] using hbegun task (by simp [hlast])
  · cases hrest : s.tasks.dropWhile begun with
    | nil =>
      rw [hrest] at htasks
      simpa [Schedule.finish, htasks] using hfinish
    | cons next rest =>
      have hseam := h.seams
      rw [htasks, hrest] at hseam
      have hseam := (List.isChain_cons_cons.mp (List.isChain_append.mp hseam).2.1).1
      have hnext : t < next.start := h.later_of_mem_dropWhile (hrest ▸ List.mem_cons_self)
      rwa [hseam.time]

/-- Looking up an instant succeeds only within the horizon. -/
theorem currentIndex_ok {s : Schedule R} {t : Time} {index : Nat}
    (h : s.currentIndex t = .ok index) : s.start ≤ t ∧ t < s.finish := by
  unfold currentIndex at h
  split_ifs at h with hout
  simp only [Time.le_iff, Time.lt_iff, not_or] at *
  omega

theorem get_append (before after : List (Task R)) (task : Task R) :
    get ⟨before ++ task :: after⟩ before.length = .ok task := by
  simp [get]

/-- What is found at an index is the task there. -/
theorem get_ok {s : Schedule R} {index : Nat} {task : Task R} (h : s.get index = .ok task) :
    ∃ before after, s.tasks = before ++ task :: after ∧ before.length = index := by
  unfold get at h
  cases hget : s.tasks[index]? with
  | none => simp [hget] at h
  | some found =>
    simp only [hget, Except.ok.injEq] at h
    exact h ▸ exists_split hget

/-- The task of an instant stands at its index. -/
theorem get_of_current {s : Schedule R} {t : Time} {index : Nat} {task : Task R}
    (h : s.current t = .ok (index, task)) : s.get index = .ok task := by
  unfold current at h
  cases hindex : s.currentIndex t with
  | error e => simp [hindex, bind, Except.bind] at h
  | ok i =>
    cases hget : s.get i with
    | error e => simp [hindex, hget, bind, Except.bind] at h
    | ok found =>
      simp only [hindex, hget, bind, Except.bind, pure, Except.pure, Except.ok.injEq,
        Prod.mk.injEq] at h
      obtain ⟨rfl, rfl⟩ := h
      exact hget

/-- The task of an instant covers it. -/
theorem Valid.current_ok {s : Schedule R} (h : s.Valid) {t : Time} {index : Nat} {task : Task R}
    (hcurrent : s.current t = .ok (index, task)) :
    ∃ before after, s.tasks = before ++ task :: after ∧ before.length = index ∧
      task.Covers t := by
  unfold current at hcurrent
  cases hindex : s.currentIndex t with
  | error e => simp [hindex, bind, Except.bind] at hcurrent
  | ok i =>
    obtain ⟨hstart, hfinish⟩ := currentIndex_ok hindex
    obtain ⟨before, found, after, htasks, hcovers, hfound⟩ := h.exists_current hstart hfinish
    rw [hfound] at hindex
    cases hindex
    obtain ⟨⟩ := s
    subst htasks
    rw [hfound] at hcurrent
    simp only [bind, Except.bind, get_append, pure, Except.pure, Except.ok.injEq,
      Prod.mk.injEq] at hcurrent
    obtain ⟨rfl, rfl⟩ := hcurrent
    exact ⟨before, after, rfl, rfl, hcovers⟩

theorem Valid.current_eq {before after : List (Task R)} {task : Task R} {t : Time}
    (h : Valid ⟨before ++ task :: after⟩) (hcovers : task.Covers t) :
    current ⟨before ++ task :: after⟩ t = .ok (before.length, task) := by
  simp [current, h.currentIndex_eq hcovers, get_append, bind, Except.bind, pure, Except.pure]

/-! ## Executing -/

/-- A task can go one status further, to be started only behind tasks that are over. -/
theorem advance_append {before after : List (Task R)} {task : Task R} {status : TaskStatus}
    (hnext : task.status.next? = some status)
    (hbefore : status = .started → ∀ a ∈ before, a.status = .performed) (t : Time) :
    advance ⟨before ++ task :: after⟩ before.length status t =
      .ok (task.advanced status t, ⟨before ++ task.advanced status t :: after⟩) := by
  have hblocking : blocking? ⟨before ++ task :: after⟩ before.length status = none := by
    unfold blocking?
    split
    next hstart =>
      have hlast : (before ++ task :: after)[before.length - 1]? = before.getLast? := by
        rw [List.getElem?_append_left (by omega), List.getLast?_eq_getElem?]
      rw [hlast]
      cases hprevious : before.getLast? with
      | none => rfl
      | some previous =>
        have hdone := hbefore hstart.1 previous (List.mem_of_getLast? hprevious)
        simp [hdone]
    · rfl
  simp [advance, get_append, hblocking, Task.advance, hnext, bind, Except.bind, pure, Except.pure]

/-- A task that advances goes one status further, and it starts only behind tasks that are over. -/
theorem advance_ok {s s' : Schedule R} {index : Nat} {status : TaskStatus} {t : Time}
    {task' : Task R} (h : s.advance index status t = .ok (task', s')) :
    ∃ before task after, s.tasks = before ++ task :: after ∧ before.length = index ∧
      task.status.next? = some status ∧
      (status = .started → ∀ a ∈ before.getLast?, a.status = .performed) ∧
      task' = task.advanced status t ∧ s' = ⟨before ++ task' :: after⟩ := by
  unfold advance at h
  cases hget : s.get index with
  | error e => simp [hget, bind, Except.bind] at h
  | ok task =>
    obtain ⟨before, after, htasks, rfl⟩ := get_ok hget
    obtain ⟨⟩ := s
    subst htasks
    cases hblocking : blocking? ⟨before ++ task :: after⟩ before.length status with
    | some previous => simp [hget, hblocking, bind, Except.bind] at h
    | none =>
      simp only [hget, hblocking, bind, Except.bind, Task.advance] at h
      by_cases hnext : task.status.next? = some status
      · simp only [hnext, if_true, pure, Except.pure, Except.ok.injEq, Prod.mk.injEq] at h
        obtain ⟨rfl, rfl⟩ := h
        refine ⟨before, task, after, rfl, rfl, hnext, ?_, rfl, by simp⟩
        intro hstarted a ha
        have hne : before ≠ [] := by rintro rfl; simp at ha
        have hpos := List.length_pos_of_ne_nil hne
        have hlast : (before ++ task :: after)[before.length - 1]? = some a := by
          rw [List.getElem?_append_left (by omega), ← List.getLast?_eq_getElem?]
          exact ha
        simp only [blocking?, hstarted, hpos, and_self, if_true, hlast] at hblocking
        by_contra hopen
        simp [hopen] at hblocking
      · simp [hnext] at h

/-! ## Taking work back -/

/-- No task is found to be begun exactly when all are planned. -/
theorem firstBegun?_eq_none_iff {index : Nat} {tasks : List (Task R)} :
    firstBegun? index tasks = none ↔ ∀ task ∈ tasks, task.status = .planned := by
  unfold firstBegun?
  rw [List.findSome?_eq_none_iff]
  constructor
  · intro h task htask
    obtain ⟨i, hi⟩ := List.mem_iff_getElem?.mp htask
    have hnone := h (task, index + i) (List.mk_add_mem_zipIdx_iff_getElem?.mpr hi)
    by_contra hbegun
    simp [hbegun] at hnone
  · rintro h ⟨task, i⟩ hi
    simp [h task (List.fst_mem_of_mem_zipIdx hi)]

/-- The idle time that takes the place of the tasks behind some others. -/
def reclaimed (before : List (Task R)) (first : Task R) (finish : Time) (energy : Option R) :
    Task R :=
  let idle : Task R := Task.stay first.source first.start finish
  { idle with
    kind := .stay (before.getLast?.bind fun task => task.kind.docksAt)
    energy := energy }

/-- Planned tasks at the end of a schedule can be given back. -/
theorem retractFrom_append {before after : List (Task R)} {first : Task R}
    (h : ∀ task ∈ first :: after, task.status = .planned) (energy : Option R) :
    retractFrom ⟨before ++ first :: after⟩ before.length energy =
      .ok ⟨before ++ [reclaimed before first (finish ⟨before ++ first :: after⟩) energy]⟩ := by
  have hnone : firstBegun? before.length (first :: after) = none :=
    firstBegun?_eq_none_iff.mpr h
  simp only [retractFrom, get_append, bind, Except.bind, List.drop_left', hnone, pure,
    Except.pure, List.take_left', reclaimed]

/-- Only planned tasks at the end of a schedule are ever given back. -/
theorem retractFrom_ok {s s' : Schedule R} {index : Nat} {energy : Option R}
    (h : s.retractFrom index energy = .ok s') :
    ∃ before first after, s.tasks = before ++ first :: after ∧ before.length = index ∧
      (∀ task ∈ first :: after, task.status = .planned) ∧
      s' = ⟨before ++ [reclaimed before first s.finish energy]⟩ := by
  cases hget : s.get index with
  | error e => simp [retractFrom, hget, bind, Except.bind] at h
  | ok first =>
    obtain ⟨before, after, htasks, rfl⟩ := get_ok hget
    obtain ⟨⟩ := s
    subst htasks
    cases hbegun : firstBegun? before.length (first :: after) with
    | some found => simp [retractFrom, hget, hbegun, bind, Except.bind, List.drop_left'] at h
    | none =>
      have hplanned := firstBegun?_eq_none_iff.mp hbegun
      rw [retractFrom_append hplanned, Except.ok.injEq] at h
      exact ⟨before, first, after, rfl, rfl, hplanned, h.symm⟩

/-- A planned task that does not move the vehicle can be turned into idle time. -/
theorem vacate_append {before after : List (Task R)} {task : Task R}
    (hplanned : task.status = .planned) (hdrive : task.kind.isDrive = false) :
    vacate ⟨before ++ task :: after⟩ before.length =
      .ok ⟨before ++ { task with kind := .stay none } :: after⟩ := by
  simp [vacate, get_append, hplanned, hdrive, bind, Except.bind, pure, Except.pure]

/-- Only planned tasks that do not move the vehicle are ever turned into idle time. -/
theorem vacate_ok {s s' : Schedule R} {index : Nat} (h : s.vacate index = .ok s') :
    ∃ before task after, s.tasks = before ++ task :: after ∧ before.length = index ∧
      task.status = .planned ∧ task.kind.isDrive = false ∧
      s' = ⟨before ++ { task with kind := .stay none } :: after⟩ := by
  cases hget : s.get index with
  | error e => simp [vacate, hget, bind, Except.bind] at h
  | ok task =>
    obtain ⟨before, after, htasks, rfl⟩ := get_ok hget
    obtain ⟨⟩ := s
    subst htasks
    by_cases hrefused : task.status ≠ .planned ∨ task.kind.isDrive = true
    · simp [vacate, hget, hrefused, bind, Except.bind] at h
    · have hplanned := Classical.not_not.mp (not_or.mp hrefused).1
      have hdrive := Bool.eq_false_iff.mpr (not_or.mp hrefused).2
      rw [vacate_append hplanned hdrive, Except.ok.injEq] at h
      exact ⟨before, task, after, rfl, rfl, hplanned, hdrive, h.symm⟩

/-- The energy of a task that is not over can be replaced. -/
theorem overrideEnergy_append {before after : List (Task R)} {task : Task R}
    (hopen : task.status ≠ .performed) (kwh : R) :
    overrideEnergy ⟨before ++ task :: after⟩ before.length kwh =
      .ok ⟨before ++ task.withEnergy kwh :: after⟩ := by
  simp [overrideEnergy, get_append, hopen, bind, Except.bind, pure, Except.pure]

/-- Only the energy of a task that is not over is ever replaced. -/
theorem overrideEnergy_ok {s s' : Schedule R} {index : Nat} {kwh : R}
    (h : s.overrideEnergy index kwh = .ok s') :
    ∃ before task after, s.tasks = before ++ task :: after ∧ before.length = index ∧
      task.status ≠ .performed ∧ s' = ⟨before ++ task.withEnergy kwh :: after⟩ := by
  cases hget : s.get index with
  | error e => simp [overrideEnergy, hget, bind, Except.bind] at h
  | ok task =>
    obtain ⟨before, after, htasks, rfl⟩ := get_ok hget
    obtain ⟨⟩ := s
    subst htasks
    by_cases hdone : task.status = .performed
    · simp [overrideEnergy, hget, hdone, bind, Except.bind] at h
    · rw [overrideEnergy_append hdone, Except.ok.injEq] at h
      exact ⟨before, task, after, rfl, rfl, hdone, h.symm⟩

/-! ## Inserting and splitting -/

@[simp] theorem splice_append (before after tasks : List (Task R)) (task : Task R) :
    splice ⟨before ++ task :: after⟩ before.length tasks = ⟨before ++ tasks ++ after⟩ := by
  simp [splice]

/-- A task can be carved from idle time that has some tasks behind it. -/
structure Carves (stay task : Task R) (after : List (Task R)) : Prop where
  /-- There is idle time. -/
  idle : stay.isStay = true
  /-- It has not been begun. -/
  waiting : stay.status = .planned
  /-- Nor has the task. -/
  fresh : task.status = .planned
  /-- The task takes time. -/
  lasts : task.start < task.finish
  /-- It begins with the idle time. -/
  starts : task.start = stay.start
  /-- It ends no later. -/
  fits : task.finish ≤ stay.finish
  /-- It begins where the vehicle is. -/
  place : task.source = stay.source
  /-- It leaves the vehicle where the next task begins. -/
  next : after ≠ [] → task.target = stay.target

theorem insertFault?_eq_none_iff {before after : List (Task R)} {stay task : Task R} :
    insertFault? ⟨before ++ stay :: after⟩ before.length stay task = none ↔
      Carves stay task after := by
  have hlast : before.length + 1 < (before ++ stay :: after).length ↔ after ≠ [] := by
    cases after <;> simp
  simp only [insertFault?, fault_or_eq_none_iff, not_not]
  constructor
  · rintro ⟨hidle, hwaiting, hfresh, hlasts, hstarts, hfits, hplace, hnext, -⟩
    exact ⟨by simpa using hidle, hwaiting, hfresh, Nat.lt_of_not_le hlasts, hstarts,
      Nat.le_of_not_lt hfits, hplace, fun h => not_not.mp fun hne => hnext ⟨hlast.mpr h, hne⟩⟩
  · intro h
    exact ⟨by simp [h.idle], h.waiting, h.fresh, Nat.not_le_of_lt h.lasts, h.starts,
      Nat.not_lt_of_le h.fits, h.place, fun hnext => hnext.2 (h.next (hlast.mp hnext.1)), trivial⟩

/-- Idle time can be split at an instant. -/
structure Splits (stay : Task R) (t : Time) : Prop where
  /-- There is idle time. -/
  idle : stay.isStay = true
  /-- It is not over. -/
  unfinished : stay.status ≠ .performed
  /-- The instant lies behind its begin. -/
  inside : t ≠ stay.start

theorem splitFault?_eq_none_iff {stay : Task R} {t : Time} :
    splitFault? stay t = none ↔ Splits stay t := by
  simp only [splitFault?, fault_or_eq_none_iff]
  constructor
  · rintro ⟨hidle, hdone, hstart, -⟩
    exact ⟨by simpa using hidle, hdone, hstart⟩
  · intro h
    exact ⟨by simp [h.idle], h.unfinished, h.inside, trivial⟩

variable [Scalar R]

/-- A task that takes all of the idle time leaves none. -/
theorem remainder_eq_nil {stay task : Task R} (h : task.finish = stay.finish) :
    remainder stay task = [] :=
  if_pos h

/-- A task that ends before the idle time does leaves idle time where and when it ends. -/
theorem remainder_of_ne {stay task : Task R} (h : task.finish ≠ stay.finish) :
    ∃ left, remainder stay task = [left] ∧ left.kind = .stay task.kind.docksAt ∧
      left.status = stay.status ∧ left.start = task.finish ∧ left.finish = stay.finish ∧
      left.source = task.target ∧ left.target = task.target ∧
      left.energy = (stay.trimHead task.finish).energy :=
  ⟨_, if_neg h, rfl, rfl, rfl, rfl, rfl, rfl, rfl⟩

theorem of_mem_remainder {stay task left : Task R} (h : left ∈ remainder stay task) :
    left.isStay = true ∧ left.status = stay.status := by
  by_cases hall : task.finish = stay.finish
  · simp [remainder_eq_nil hall] at h
  · obtain ⟨only, honly, hkind, hstatus, -⟩ := remainder_of_ne hall
    obtain rfl : left = only := by simpa [honly] using h
    exact ⟨by rw [Task.isStay, hkind]; rfl, hstatus⟩

/-- A task that can be carved from idle time takes its head. -/
theorem insert_append {before after : List (Task R)} {stay task : Task R}
    (h : Carves stay task after) :
    insert ⟨before ++ stay :: after⟩ task before.length =
      .ok (before.length, ⟨before ++ (task :: remainder stay task) ++ after⟩) := by
  simp [insert, insertFault?_eq_none_iff.mpr h]

/-- Work is only ever put into idle time from which it can be carved. -/
theorem insert_ok {s s' : Schedule R} {task : Task R} {index given : Nat}
    (h : s.insert task index = .ok (given, s')) :
    ∃ before stay after, s.tasks = before ++ stay :: after ∧ before.length = index ∧
      Carves stay task after ∧ given = index ∧
      s' = ⟨before ++ (task :: remainder stay task) ++ after⟩ := by
  unfold insert at h
  cases hget : s.tasks[index]? with
  | none => simp [hget] at h
  | some stay =>
    obtain ⟨before, after, htasks, rfl⟩ := exists_split hget
    obtain ⟨⟩ := s
    subst htasks
    cases hfault : insertFault? ⟨before ++ stay :: after⟩ before.length stay task with
    | some fault => simp [hfault] at h
    | none =>
      simp only [hget, hfault, splice_append, Except.ok.injEq, Prod.mk.injEq] at h
      exact ⟨before, stay, after, rfl, rfl, insertFault?_eq_none_iff.mp hfault, h.1.symm,
        h.2.symm⟩

/-- Idle time is split at an instant that belongs to it. -/
theorem splitStayAt_ok {s s' : Schedule R} {t : Time} {parts : Nat × Nat}
    (h : s.splitStayAt t = .ok (parts, s')) :
    ∃ index stay, s.current t = .ok (index, stay) ∧ Splits stay t ∧ parts = (index, index + 1) ∧
      s' = s.splice index [stay.headUntil t, stay.tailFrom t] := by
  unfold splitStayAt at h
  cases hcurrent : s.current t with
  | error e => simp [hcurrent, bind, Except.bind] at h
  | ok found =>
    obtain ⟨index, stay⟩ := found
    cases hfault : splitFault? stay t with
    | some fault => simp [hcurrent, hfault, bind, Except.bind] at h
    | none =>
      simp only [hcurrent, hfault, bind, Except.bind, pure, Except.pure, Except.ok.injEq,
        Prod.mk.injEq] at h
      exact ⟨index, stay, rfl, splitFault?_eq_none_iff.mp hfault, h.1.symm, h.2.symm⟩

/-- In a valid schedule the instant lies inside it. -/
theorem Valid.splitStayAt_ok {s s' : Schedule R} (hs : s.Valid) {t : Time} {parts : Nat × Nat}
    (h : s.splitStayAt t = .ok (parts, s')) :
    ∃ before stay after, s.tasks = before ++ stay :: after ∧ stay.Covers t ∧ Splits stay t ∧
      parts = (before.length, before.length + 1) ∧
      s' = ⟨before ++ [stay.headUntil t, stay.tailFrom t] ++ after⟩ := by
  obtain ⟨index, stay, hcurrent, hsplits, rfl, rfl⟩ := Schedule.splitStayAt_ok h
  obtain ⟨before, after, htasks, rfl, hcovers⟩ := hs.current_ok hcurrent
  obtain ⟨⟩ := s
  subst htasks
  exact ⟨before, stay, after, rfl, hcovers, hsplits, rfl, splice_append ..⟩

/-- A place for new work is planned idle time that begins there, or is made by splitting. -/
theorem insertionPoint_ok {s s' : Schedule R} {t : Time} {index : Nat}
    (h : s.insertionPoint t = .ok (index, s')) :
    (∃ stay, s.current t = .ok (index, stay) ∧ stay.start = t ∧ stay.isStay = true ∧
      stay.status = .planned ∧ s' = s) ∨
    (∃ first, s.splitStayAt t = .ok ((first, index), s')) := by
  unfold insertionPoint at h
  cases hcurrent : s.current t with
  | error e => simp [hcurrent, bind, Except.bind] at h
  | ok found =>
    obtain ⟨i, task⟩ := found
    simp only [hcurrent, bind, Except.bind] at h
    by_cases hstart : task.start = t
    · rw [if_pos hstart] at h
      by_cases hidle : task.isStay = true ∧ task.status = .planned
      · rw [if_pos hidle] at h
        simp only [pure, Except.pure, Except.ok.injEq, Prod.mk.injEq] at h
        obtain ⟨rfl, rfl⟩ := h
        exact .inl ⟨task, rfl, hstart, hidle.1, hidle.2, rfl⟩
      · rw [if_neg hidle] at h
        cases h
    · rw [if_neg hstart] at h
      cases hsplit : s.splitStayAt t with
      | error e => simp [hsplit] at h
      | ok result =>
        obtain ⟨⟨first, after⟩, split⟩ := result
        simp only [hsplit, pure, Except.pure, Except.ok.injEq, Prod.mk.injEq] at h
        obtain ⟨rfl, rfl⟩ := h
        exact .inr ⟨first, rfl⟩

/-- In a valid schedule its index is that of the idle time found. -/
theorem Valid.insertionPoint_ok {s s' : Schedule R} (hs : s.Valid) {t : Time} {index : Nat}
    (h : s.insertionPoint t = .ok (index, s')) :
    (∃ before stay after, s.tasks = before ++ stay :: after ∧ before.length = index ∧
      stay.start = t ∧ stay.isStay = true ∧ stay.status = .planned ∧ s' = s) ∨
    (∃ first, s.splitStayAt t = .ok ((first, index), s')) := by
  rcases Schedule.insertionPoint_ok h with ⟨stay, hcurrent, hstart, hidle, hplanned, rfl⟩ | hsplit
  · obtain ⟨before, after, htasks, hlength, -⟩ := hs.current_ok hcurrent
    exact .inl ⟨before, stay, after, htasks, hlength, hstart, hidle, hplanned, rfl⟩
  · exact .inr hsplit

/-- Planned idle time that begins at an instant is the place for new work there. -/
theorem Valid.insertionPoint_start {before after : List (Task R)} {stay : Task R}
    (h : Valid ⟨before ++ stay :: after⟩) (hidle : stay.isStay = true)
    (hwaiting : stay.status = .planned) :
    insertionPoint ⟨before ++ stay :: after⟩ stay.start =
      .ok (before.length, ⟨before ++ stay :: after⟩) := by
  have hlasts := (h.sound stay (by simp)).lasts
  have hcurrent := h.current_eq ⟨Nat.le_refl stay.start.secs, hlasts⟩
  simp [insertionPoint, hcurrent, hidle, hwaiting, bind, Except.bind, pure, Except.pure]

/-- Idle time is split at an instant inside it, to make a place for new work. -/
theorem Valid.insertionPoint_inside {before after : List (Task R)} {stay : Task R} {t : Time}
    (h : Valid ⟨before ++ stay :: after⟩) (hcovers : stay.Covers t) (hsplits : Splits stay t) :
    insertionPoint ⟨before ++ stay :: after⟩ t =
      .ok (before.length + 1, ⟨before ++ [stay.headUntil t, stay.tailFrom t] ++ after⟩) := by
  have hcurrent := h.current_eq hcovers
  have hinside : stay.start ≠ t := fun hstart => hsplits.inside hstart.symm
  have hfault := splitFault?_eq_none_iff.mpr hsplits
  simp [insertionPoint, splitStayAt, hcurrent, hinside, hfault, bind, Except.bind, pure,
    Except.pure]

end DemandTransport.Schedule
