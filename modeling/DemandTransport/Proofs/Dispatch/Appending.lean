import DemandTransport.Proofs.Action
import DemandTransport.Proofs.Dispatch.Evaluation
import DemandTransport.Proofs.Schedule.Editing
import DemandTransport.Proofs.Schedule.InPlace

/-!
# Plans fit into the schedules they were made for

Tasks that lead from the open idle time at the end of a schedule to a time before the idle time is
over can be written there: each one is carved from what the one before it has left. What comes out
is known exactly. The tasks before the idle time stay as they are, the idle time is cut where the
new tasks begin, and behind them comes what they have left of it, which is idle time where they end.
-/

namespace DemandTransport

variable {R : Type} [Scalar R]

/-- The part of some idle time that lies before an instant, if there is one. -/
def Task.partBefore (stay : Task R) (t : Time) : List (Task R) :=
  if stay.start < t then [stay.headUntil t] else []

/-- The part of some idle time that is open from an instant on. -/
def Task.partFrom (stay : Task R) (t : Time) : Task R :=
  if stay.start < t then stay.tailFrom t else stay

theorem Task.eq_of_mem_partBefore {stay task : Task R} {t : Time}
    (h : task ∈ stay.partBefore t) : task = stay.headUntil t := by
  unfold partBefore at h
  split at h
  · exact List.mem_singleton.mp h
  · cases h

theorem Task.partBefore_isStay {stay : Task R} (hidle : stay.isStay = true) (t : Time) :
    ∀ task ∈ stay.partBefore t, task.isStay = true := by
  intro task htask
  rw [eq_of_mem_partBefore htask]
  exact hidle

theorem Task.partFrom_isStay {stay : Task R} (hidle : stay.isStay = true) (t : Time) :
    (stay.partFrom t).isStay = true := by
  unfold Task.partFrom
  split <;> exact hidle

@[simp] theorem Task.partFrom_finish (stay : Task R) (t : Time) :
    (stay.partFrom t).finish = stay.finish := by
  unfold Task.partFrom
  split <;> rfl

/-- The open part begins at the instant, unless all of it is later. -/
theorem Task.partFrom_start {stay : Task R} {t : Time} (h : stay.start ≤ t) :
    (stay.partFrom t).start = t := by
  unfold Task.partFrom
  split
  · rfl
  next hsame =>
    simp only [Time.le_iff, Time.lt_iff, Time.eq_iff] at *
    omega

/-- It lies where the idle time leaves the vehicle. -/
theorem Task.partFrom_source {stay : Task R} (h : stay.source = stay.target) (t : Time) :
    (stay.partFrom t).source = stay.target := by
  unfold Task.partFrom
  split
  · rfl
  · exact h

/-- Idle time that has been begun is open only behind its begin, so the open part is planned. -/
theorem Task.partFrom_status {stay : Task R} {t : Time} (hopen : stay.status ≠ .performed)
    (hbegun : stay.status = .started → t ≠ stay.start) (hstart : stay.start ≤ t) :
    (stay.partFrom t).status = .planned := by
  unfold Task.partFrom
  split
  next => rfl
  next hlater =>
    cases hstatus : stay.status with
    | planned => rfl
    | started =>
      have hnow := hbegun hstatus
      simp only [Time.le_iff, Time.lt_iff, Time.eq_iff, ne_eq] at *
      omega
    | performed => exact (hopen hstatus).elim

namespace Schedule

/-- What tasks leave of the idle time from which they are carved one behind the other. -/
def leftover (stay : Task R) : List (Task R) → List (Task R)
  | [] => [stay]
  | task :: rest => (remainder stay task).flatMap fun left => leftover left rest

theorem leftover_isStay {stay : Task R} (hidle : stay.isStay = true) (tasks : List (Task R)) :
    ∀ left ∈ leftover stay tasks, left.isStay = true := by
  induction tasks generalizing stay with
  | nil => simpa [leftover] using hidle
  | cons task rest ih =>
    intro left hleft
    obtain ⟨middle, hmiddle, hleft⟩ := List.mem_flatMap.mp hleft
    refine ih ?_ left hleft
    by_cases hall : task.finish = stay.finish
    · simp [remainder_eq_nil hall] at hmiddle
    · obtain ⟨only, honly, hkind, -⟩ := remainder_of_ne hall
      rw [honly, List.mem_singleton] at hmiddle
      rw [hmiddle, Task.isStay, hkind]
      rfl

/-- Tasks that use up all idle time leave none. Others leave idle time from their end on, where they
end and docked as the last one leaves the vehicle. -/
theorem leftover_of_leads {stay last : Task R} {tasks : List (Task R)} {a node : NodeId}
    {s t : Time} (hleads : Leads a s (tasks ++ [last]) node t) (ht : t ≤ stay.finish) :
    (t = stay.finish → leftover stay (tasks ++ [last]) = []) ∧
      (t ≠ stay.finish → ∃ left, leftover stay (tasks ++ [last]) = [left] ∧
        left.kind = .stay last.kind.docksAt ∧ left.status = stay.status ∧ left.start = t ∧
        left.finish = stay.finish ∧ left.source = node ∧ left.target = node) := by
  induction tasks generalizing stay a s with
  | nil =>
    cases hleads with
    | cons sound fresh later =>
      obtain ⟨rfl, rfl⟩ := later.of_nil
      constructor
      · intro hall
        simp [leftover, remainder_eq_nil hall]
      · intro hleft
        obtain ⟨left, hremainder, hkind, hstatus, hstart, hfinish, hsource, htarget, -⟩ :=
          remainder_of_ne hleft
        exact ⟨left, by simp [leftover, hremainder], hkind, hstatus, hstart, hfinish, hsource,
          htarget⟩
  | cons task more ih =>
    cases hleads with
    | cons sound fresh later =>
      have hshort : task.finish ≠ stay.finish := by
        have hlasts := later.lt (by simp)
        simp only [Time.le_iff, Time.lt_iff, Time.eq_iff, ne_eq] at *
        omega
      obtain ⟨left, hremainder, -, hstatus, -, hfinish, -⟩ := remainder_of_ne hshort
      have hrest := @ih left _ _ later (by rwa [hfinish])
      have hleftover : leftover stay (task :: more ++ [last]) = leftover left (more ++ [last]) := by
        simp [leftover, hremainder]
      rwa [hleftover, ← hfinish, ← hstatus]

/-- Tasks that lead from the begin of planned idle time are carved from it one by one. -/
theorem insertFrom_ends {before tasks : List (Task R)} {stay : Task R} {node : NodeId} {t : Time}
    (hidle : stay.isStay = true) (hwaiting : stay.status = .planned)
    (hleads : Leads stay.source stay.start tasks node t) (ht : t ≤ stay.finish) :
    (insertFrom before.length tasks).Ends ⟨before ++ [stay]⟩
      (fun _ s' => s'.tasks = before ++ tasks ++ leftover stay tasks) fun _ _ => False := by
  induction tasks generalizing before stay with
  | nil => simp [insertFrom, leftover]
  | cons task more ih =>
    generalize hsource : stay.source = source at hleads
    generalize hstart : stay.start = start at hleads
    cases hleads with
    | cons sound fresh later =>
      have hle := later.le
      have hcarves : Carves stay task [] :=
        ⟨hidle, hwaiting, fresh, sound.lasts, hstart.symm, by
          simp only [Time.le_iff] at *
          omega, hsource.symm, by simp⟩
      simp only [insertFrom, Action.ends_bind, InPlace.insert_eq, Action.ends_entirely, insert_append hcarves]
      by_cases hall : task.finish = stay.finish
      · have hlast : more = [] := by
          by_contra hne
          have hlasts := later.lt hne
          simp only [Time.le_iff, Time.lt_iff, Time.eq_iff] at *
          omega
        subst hlast
        simp [insertFrom, leftover, remainder_eq_nil hall]
      · obtain ⟨left, hremainder, hkind, hstatus, hleftStart, hfinish, hleftSource, -⟩ :=
          remainder_of_ne hall
        have hlater := @ih (before ++ [task]) left (by rw [Task.isStay, hkind]; rfl)
          (hstatus.trans hwaiting) (by rwa [hleftSource, hleftStart]) (by rwa [hfinish])
        rw [hremainder]
        simpa [leftover, hremainder] using hlater

/-- Tasks leave of idle time one stretch at most. -/
theorem leftover_length_le (stay : Task R) (tasks : List (Task R)) :
    (leftover stay tasks).length ≤ 1 := by
  induction tasks generalizing stay with
  | nil => simp [leftover]
  | cons task rest ih =>
    by_cases hall : task.finish = stay.finish
    · simp [leftover, remainder_eq_nil hall]
    · obtain ⟨left, honly, -⟩ := remainder_of_ne hall
      simpa [leftover, honly] using ih left

/-- Tasks that are written into planned idle time without being refused stand there, and the idle
time that they leave is planned and begins no earlier. -/
theorem insertFrom_writes {before tasks : List (Task R)} {stay : Task R}
    (hwaiting : stay.status = .planned) :
    (insertFrom before.length tasks).Ends ⟨before ++ [stay]⟩
      (fun _ s' => s'.tasks = before ++ tasks ++ leftover stay tasks ∧
        ∀ left ∈ leftover stay tasks, left.status = .planned ∧ stay.start ≤ left.start)
      fun _ _ => True := by
  induction tasks generalizing before stay with
  | nil => simp [insertFrom, leftover, hwaiting, Time.le_iff]
  | cons task more ih =>
    simp only [insertFrom, Action.ends_bind, InPlace.insert_eq, Action.ends_entirely]
    split
    next _ s' hinsert =>
      obtain ⟨first, found, after, htasks, hlength, hcarves, rfl, rfl⟩ := insert_ok hinsert
      obtain ⟨rfl, hfound⟩ := List.append_inj htasks hlength.symm
      obtain ⟨rfl, rfl⟩ : stay = found ∧ after = [] := by simpa using hfound
      by_cases hall : task.finish = stay.finish
      · simp only [leftover, remainder_eq_nil hall, List.append_nil, List.flatMap_nil]
        cases more with
        | nil => simp [insertFrom]
        | cons next others =>
          have hbeyond : insert ⟨before ++ [task]⟩ next (before.length + 1) =
              .error (.invalidInsertion (before.length + 1) (.beyondEnd (before.length + 1))) := by
            simp [insert]
          simp [insertFrom, InPlace.insert_eq, hbeyond]
      · obtain ⟨left, honly, -, hstatus, hstart, -⟩ := remainder_of_ne hall
        have hlater := @ih (before ++ [task]) left (hstatus.trans hwaiting)
        simp only [leftover, honly, List.append_nil, List.flatMap_cons, List.flatMap_nil]
        have hschedule : before ++ [task, left] = before ++ [task] ++ [left] := by simp
        have hindex : before.length + 1 = (before ++ [task]).length := by simp
        rw [hschedule, hindex]
        refine hlater.mono (fun _ s' hs' => ⟨by simpa using hs'.1, fun rest hrest => ?_⟩)
          fun _ _ h => h
        have hend := (hs'.2 rest hrest).2
        have hlasts := hcarves.lasts
        rw [hstart] at hend
        rw [hcarves.starts] at hlasts
        exact ⟨(hs'.2 rest hrest).1, Nat.le_trans (Nat.le_of_lt hlasts) hend⟩
    · trivial

/-- Only tasks that take time are written without being refused. -/
theorem insertFrom_lasts (s : Schedule R) (index : Nat) (tasks : List (Task R)) :
    (insertFrom index tasks).Ends s (fun _ _ => ∀ task ∈ tasks, task.start < task.finish)
      fun _ _ => True := by
  induction tasks generalizing s index with
  | nil => exact (Action.ends_pure _).mpr (by simp)
  | cons task more ih =>
    simp only [insertFrom, Action.ends_bind, InPlace.insert_eq, Action.ends_entirely]
    split
    next _ s' hinsert =>
      obtain ⟨_, _, _, _, _, hcarves, _⟩ := insert_ok hinsert
      exact (ih s' (index + 1)).mono
        (fun _ _ hmore => List.forall_mem_cons.mpr ⟨hcarves.lasts, hmore⟩) fun _ _ h => h
    · trivial

/-- New work in the open idle time at the end of a schedule has its place behind the part of the
idle time that lies before it. -/
theorem Valid.insertionPoint_open {before : List (Task R)} {stay : Task R} {depart : Time}
    (hs : Valid ⟨before ++ [stay]⟩) (hidle : stay.isStay = true) (hopen : stay.status ≠ .performed)
    (hbegun : stay.status = .started → depart ≠ stay.start) (hcovers : stay.Covers depart) :
    insertionPoint ⟨before ++ [stay]⟩ depart =
      .ok ((before ++ stay.partBefore depart).length,
        ⟨before ++ stay.partBefore depart ++ [stay.partFrom depart]⟩) := by
  have hwaiting := Task.partFrom_status hopen hbegun hcovers.1
  have hstart := Task.partFrom_start hcovers.1
  unfold Task.partFrom at hwaiting hstart
  unfold Task.partBefore Task.partFrom
  split at hwaiting
  next hlater =>
    have hinside : depart ≠ stay.start := fun heq => Nat.lt_irrefl _ (heq ▸ hlater)
    simpa [hlater] using hs.insertionPoint_inside hcovers ⟨hidle, hopen, hinside⟩
  next hsame =>
    rw [if_neg hsame] at hstart
    subst hstart
    simpa [hsame] using hs.insertionPoint_start hidle hwaiting

/-- Tasks that lead from an instant in the open idle time at the end of a schedule are written
there. -/
theorem Valid.insertAt_ends {before tasks : List (Task R)} {stay : Task R} {depart t : Time}
    {node : NodeId} (hs : Valid ⟨before ++ [stay]⟩) (hidle : stay.isStay = true)
    (hopen : stay.status ≠ .performed) (hdepart : stay.start ≤ depart)
    (hbegun : stay.status = .started → depart ≠ stay.start)
    (hleads : Leads stay.target depart tasks node t) (ht : t ≤ stay.finish) (hne : tasks ≠ []) :
    (insertAt depart tasks).Ends ⟨before ++ [stay]⟩
      (fun _ s' => s'.tasks =
        before ++ stay.partBefore depart ++ tasks ++ leftover (stay.partFrom depart) tasks)
      fun _ _ => False := by
  have hsound := hs.sound stay (by simp)
  have hplace := hsound.stays.resolve_left (by simp [Task.not_isDrive hidle])
  have hcovers : stay.Covers depart := by
    refine ⟨hdepart, ?_⟩
    have hlasts := hleads.lt hne
    simp only [Time.le_iff, Time.lt_iff] at *
    omega
  have hleads' : Leads (stay.partFrom depart).source (stay.partFrom depart).start tasks node t := by
    rwa [Task.partFrom_source hplace, Task.partFrom_start hdepart]
  simp only [insertAt, InPlace.insertionPoint_eq, Action.ends_bind, Action.ends_entirely,
    hs.insertionPoint_open hidle hopen hbegun hcovers]
  exact insertFrom_ends (Task.partFrom_isStay hidle depart)
    (Task.partFrom_status hopen hbegun hdepart) hleads' (by simpa)

end Schedule

end DemandTransport
