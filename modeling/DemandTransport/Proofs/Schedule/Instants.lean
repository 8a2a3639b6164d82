import DemandTransport.Proofs.Schedule.Changes
import DemandTransport.Proofs.Schedule.InPlace

/-!
# What a schedule shows at an instant

In a valid schedule exactly one task covers an instant of the horizon, and looking the instant up
finds it. When other tasks take the place of one, the schedule shows something else at the instants
that this one covered and at no others. From this it is read off, instant by instant, what a
schedule shows after work has been inserted and after a place for new work has been made.
-/

namespace DemandTransport

variable {R : Type}

namespace Schedule

/-! ## Looking up an instant -/

/-- The task at an index covers an instant, and no other task does. -/
structure Shows (s : Schedule R) (t : Time) (index : Nat) (task : Task R) : Prop where
  here : s.tasks[index]? = some task
  covers : task.Covers t
  only : ∀ i other, s.tasks[i]? = some other → other.Covers t → i = index

variable {s s' : Schedule R} {before mid after : List (Task R)} {task old : Task R} {t u : Time}
  {index : Nat}

/-- What a schedule shows at an instant is covered by nothing else. -/
theorem Shows.unique {i j : Nat} {a b : Task R} (h : s.Shows t i a) (h' : s.Shows t j b) :
    i = j ∧ a = b := by
  obtain rfl : i = j := h'.only i a h.here h.covers
  exact ⟨rfl, Option.some.inj (h.here.symm.trans h'.here)⟩

/-- In a valid schedule the tasks on both sides of one that covers an instant do not. -/
theorem Valid.shows (h : Valid ⟨before ++ task :: after⟩) (hcovers : task.Covers t) :
    Shows ⟨before ++ task :: after⟩ t before.length task := by
  refine ⟨by simp, hcovers, fun i other hother hcovers' => ?_⟩
  rcases Nat.lt_trichotomy i before.length with hbefore | heq | hafter
  · rw [List.getElem?_append_left hbefore] at hother
    have hover := (h.earlier.1 other (List.mem_of_getElem? hother)).1
    have hnow := hcovers.1
    have hlater := hcovers'.2
    simp only [Time.le_iff, Time.lt_iff] at *
    omega
  · exact heq
  · obtain ⟨k, hk⟩ : ∃ k, i - before.length = k + 1 := ⟨i - before.length - 1, by omega⟩
    rw [List.getElem?_append_right hafter.le, hk, List.getElem?_cons_succ] at hother
    have hlater := h.lt_start_of_covers hcovers other (List.mem_of_getElem? hother)
    exact (Nat.not_le_of_lt hlater hcovers'.1).elim

theorem Valid.shows_of_mem (h : s.Valid) (htask : task ∈ s.tasks) (hcovers : task.Covers t) :
    ∃ index, s.Shows t index task := by
  obtain ⟨before, after, htasks⟩ := List.append_of_mem htask
  obtain ⟨⟩ := s
  subst htasks
  exact ⟨before.length, h.shows hcovers⟩

/-- At every instant of its horizon a valid schedule shows a task. -/
theorem Valid.exists_shows (h : s.Valid) (hstart : s.start ≤ t) (hfinish : t < s.finish) :
    ∃ index task, s.Shows t index task := by
  obtain ⟨before, task, after, htasks, hcovers, -⟩ := h.exists_current hstart hfinish
  obtain ⟨index, hshows⟩ := h.shows_of_mem (by simp [htasks]) hcovers
  exact ⟨index, task, hshows⟩

/-- Looking up an instant gives an index exactly if the task there is shown. -/
theorem Valid.currentIndex_eq_ok_iff (h : s.Valid) :
    s.currentIndex t = .ok index ↔ ∃ task, s.Shows t index task := by
  constructor
  · intro hindex
    obtain ⟨hstart, hfinish⟩ := currentIndex_ok hindex
    obtain ⟨before, task, after, htasks, hcovers, hfound⟩ := h.exists_current hstart hfinish
    obtain rfl : before.length = index := Except.ok.inj (hfound.symm.trans hindex)
    obtain ⟨⟩ := s
    subst htasks
    exact ⟨task, h.shows hcovers⟩
  · rintro ⟨task, hshows⟩
    obtain ⟨before, after, htasks, rfl⟩ := exists_split hshows.here
    obtain ⟨⟩ := s
    subst htasks
    exact h.currentIndex_eq hshows.covers

/-- An instant can be looked up exactly within the horizon. -/
theorem Valid.exists_currentIndex_iff (h : s.Valid) :
    (∃ index, s.currentIndex t = .ok index) ↔ s.start ≤ t ∧ t < s.finish := by
  constructor
  · rintro ⟨index, hindex⟩
    exact currentIndex_ok hindex
  · rintro ⟨hstart, hfinish⟩
    obtain ⟨index, task, hshows⟩ := h.exists_shows hstart hfinish
    exact ⟨index, h.currentIndex_eq_ok_iff.mpr ⟨task, hshows⟩⟩

/-- When other tasks take the place of one, nothing else is shown at the instants that it did not
cover. -/
theorem Shows.elsewhere (h : Shows ⟨before ++ old :: after⟩ u index task)
    (h' : Valid ⟨before ++ mid ++ after⟩) (hnot : ¬old.Covers u) :
    ∃ i, Shows ⟨before ++ mid ++ after⟩ u i task := by
  have hother : task ≠ old := fun heq => hnot (heq ▸ h.covers)
  have hmem : task ∈ before ++ old :: after := List.mem_of_getElem? h.here
  refine h'.shows_of_mem ?_ h.covers
  simp only [List.mem_append, List.mem_cons, hother, false_or] at hmem ⊢
  exact hmem.imp_left .inl

/-! ## Inserting work -/

/-- What is shown at an instant once a task has been carved from the head of idle time, where an old
task was shown before. -/
structure Carved (stay task old new : Task R) (u : Time) : Prop where
  /-- Outside of the idle time nothing has changed. -/
  outside : ¬stay.Covers u → new = old
  /-- The task takes the head. -/
  head : task.Covers u → new = task
  /-- Behind it planned idle time is left, where the task ends. -/
  rest : stay.Covers u → ¬task.Covers u →
    new.start = task.finish ∧ new.finish = stay.finish ∧ new.source = task.target ∧
      new.target = task.target ∧ new.status = .planned ∧
      ∃ docked, new.kind = .stay docked ∧
        ∀ charger, docked = some charger ↔ task.kind = .charge charger

variable [Scalar R]

/-- The instants of the idle time behind a task belong to the planned idle time that is left. -/
theorem Carves.exists_rest {stay : Task R} (h : Carves stay task after) (hstay : stay.Covers u)
    (htask : ¬task.Covers u) :
    ∃ rest ∈ remainder stay task, rest.Covers u ∧ ∀ old, Carved stay task old rest u := by
  have hbehind : task.finish ≤ u := by
    have hbegun : task.start ≤ u := h.starts ▸ hstay.1
    exact Nat.le_of_not_lt fun hearly => htask ⟨hbegun, hearly⟩
  have hleft : task.finish ≠ stay.finish := fun heq =>
    Nat.not_lt_of_le (heq ▸ hbehind) hstay.2
  obtain ⟨rest, hrest, hkind, hstatus, hstart, hfinish, hsource, htarget, -⟩ :=
    remainder_of_ne hleft
  refine ⟨rest, by simp [hrest], ⟨hstart ▸ hbehind, hfinish ▸ hstay.2⟩, fun old => ?_⟩
  refine ⟨fun hnot => (hnot hstay).elim, fun hin => (htask hin).elim, fun _ _ => ?_⟩
  exact ⟨hstart, hfinish, hsource, htarget, hstatus.trans h.waiting, _, hkind,
    fun _ => TaskKind.docksAt_eq_some_iff⟩

/-- Carving a task from idle time changes what is shown there only: first the task, then planned
idle time, docked where the task charges. -/
theorem Carves.shows {stay : Task R} (h : Carves stay task after)
    (hvalid : Valid ⟨before ++ (task :: remainder stay task) ++ after⟩)
    (hold : Shows ⟨before ++ stay :: after⟩ u index old) :
    ∃ i new, Shows ⟨before ++ (task :: remainder stay task) ++ after⟩ u i new ∧
      Carved stay task old new u := by
  by_cases hstay : stay.Covers u
  · by_cases htask : task.Covers u
    · obtain ⟨i, hnew⟩ := hvalid.shows_of_mem (by simp) htask
      exact ⟨i, task, hnew, fun hnot => (hnot hstay).elim, fun _ => rfl,
        fun _ hnot => (hnot htask).elim⟩
    · obtain ⟨rest, hmem, hcovers, hcarved⟩ := h.exists_rest hstay htask
      obtain ⟨i, hnew⟩ := hvalid.shows_of_mem (by simp [hmem]) hcovers
      exact ⟨i, rest, hnew, hcarved old⟩
  · obtain ⟨i, hnew⟩ := hold.elsewhere hvalid hstay
    refine ⟨i, old, hnew, fun _ => rfl, fun htask => (hstay ?_).elim, fun hin => (hstay hin).elim⟩
    exact ⟨h.starts ▸ htask.1, Nat.lt_of_lt_of_le htask.2 h.fits⟩

/-- A task that is inserted stands at the index that is given, which is that of the idle time it
takes the place of. At the instants of the horizon that did not belong to this idle time the
schedule shows the same task as before, at those of the task it shows the task, and at the others
planned idle time that lasts from the end of the task to the end of the old idle time, where the
task ends, docked exactly at the charger at which the task charges. -/
theorem insert_changes_idle_time_only (hvalid : s.validate = .ok ())
    (hstays : task.kind.isDrive = true ∨ task.source = task.target)
    {given : Nat} (hinsert : InPlace.insert task index s = .ok given s') :
    s'.tasks[given]? = some task ∧ given = index ∧
    ∃ stay, s.tasks[index]? = some stay ∧ stay.isStay = true ∧
      ∀ u, s.start ≤ u → u < s.finish →
        ∃ i old j new, s.Shows u i old ∧ s'.Shows u j new ∧ Carved stay task old new u := by
  have h : s.ValidOver s.start s.finish := ⟨validate_eq_ok_iff.mp hvalid, rfl, rfl⟩
  have hmade := InPlace.insert_eq_ok_iff.mp hinsert
  have h' := (h.insert hstays hmade).toValid
  obtain ⟨before, stay, after, htasks, rfl, hcarves, rfl, rfl⟩ := insert_ok hmade
  obtain ⟨⟩ := s
  subst htasks
  refine ⟨by simp, rfl, stay, by simp, hcarves.idle, fun u hstart hfinish => ?_⟩
  obtain ⟨i, old, hold⟩ := h.toValid.exists_shows hstart hfinish
  obtain ⟨j, new, hnew, hcarved⟩ := hcarves.shows h' hold
  exact ⟨i, old, j, new, hold, hnew, hcarved⟩

/-- A charging session takes the head of idle time before a pickup. Behind it the vehicle stands
idle, docked at the charger. -/
theorem insert_changes_idle_time_only_docked :
    let stay (start finish : Nat) : Task Rat := Task.stay ⟨0⟩ (.ofSecs start) (.ofSecs finish)
    let pickup : Task Rat := Task.pickup ⟨7⟩ ⟨0⟩ (.ofSecs 50) (.ofSecs 60)
    let session : Task Rat := Task.charge ⟨1⟩ ⟨0⟩ .zero (.ofSecs 30)
    let s : Schedule Rat := ⟨[stay 0 50, pickup, stay 60 100]⟩
    let t : Schedule Rat :=
      ⟨[session, { stay 30 50 with kind := .stay (some ⟨1⟩) }, pickup, stay 60 100]⟩
    InPlace.insert session 0 s = .ok 0 t ∧ t.tasks[0]? = some session ∧
      (∃ j, t.Shows (.ofSecs 55) j pickup) ∧
      ∃ j idle, t.Shows (.ofSecs 40) j idle ∧ idle.start = .ofSecs 30 ∧
        idle.kind = .stay (some ⟨1⟩) := by
  intro stay pickup session s t
  have hinsert : InPlace.insert session 0 s = .ok 0 t :=
    InPlace.insert_eq_ok_iff.mpr (by decide)
  obtain ⟨hhere, -, idle, hidle, -, hshows⟩ :=
    insert_changes_idle_time_only (by decide : s.validate = .ok ()) (.inr rfl) hinsert
  obtain rfl : stay 0 50 = idle := Option.some.inj hidle
  refine ⟨hinsert, hhere, ?_, ?_⟩
  · obtain ⟨i, old, j, new, hold, hnew, hcarved⟩ := hshows (.ofSecs 55) (by decide) (by decide)
    have hboards : s.Shows (.ofSecs 55) 1 pickup :=
      (validate_eq_ok_iff.mp (by decide) : Valid ⟨[stay 0 50] ++ pickup :: [stay 60 100]⟩).shows
        (by decide)
    rw [hcarved.outside (by decide), (hold.unique hboards).2] at hnew
    exact ⟨j, hnew⟩
  · obtain ⟨_, _, j, new, _, hnew, hcarved⟩ := hshows (.ofSecs 40) (by decide) (by decide)
    obtain ⟨hstart, -, -, -, -, docked, hkind, hdocked⟩ := hcarved.rest (by decide) (by decide)
    exact ⟨j, new, hnew, hstart, hkind.trans (congrArg _ ((hdocked ⟨1⟩).mpr rfl))⟩

/-! ## Places for new work -/

/-- What is shown at an instant once idle time has been cut where work is to begin, where an old
task was shown before: the same work at the same place, but idle time that has been begun is planned
from there on. -/
structure Recut (t u : Time) (old new : Task R) : Prop where
  kind : new.kind = old.kind
  source : new.source = old.source
  target : new.target = old.target
  status : new.status =
    if old.isStay = true ∧ old.status = .started ∧ old.Covers t ∧ t ≤ u then .planned
    else old.status

omit [Scalar R] in
/-- A task that is not cut stays as it is. -/
theorem Recut.refl (h : ¬(old.status = .started ∧ old.Covers t)) : Recut t u old old :=
  ⟨rfl, rfl, rfl, by rw [if_neg fun hcut => h ⟨hcut.2.1, hcut.2.2.1⟩]⟩

/-- A place for new work can be made at an instant exactly if the task there is idle time that is
planned, or that has been begun before. -/
theorem Valid.exists_insertionPoint_iff (h : s.Valid) :
    (∃ index s', s.insertionPoint t = .ok (index, s')) ↔
      ∃ index task, s.Shows t index task ∧ task.isStay = true ∧
        (task.status = .planned ∨ task.status = .started ∧ task.start < t) := by
  constructor
  · rintro ⟨index, s', hpoint⟩
    rcases h.insertionPoint_ok hpoint with
      ⟨before, stay, after, htasks, -, hstart, hidle, hplanned, -⟩ | ⟨first, hsplit⟩
    · have hlasts := (h.sound stay (by simp [htasks])).lasts
      obtain ⟨i, hshows⟩ := h.shows_of_mem (by simp [htasks] : stay ∈ s.tasks)
        ⟨Nat.le_of_eq (congrArg Time.secs hstart), hstart ▸ hlasts⟩
      exact ⟨i, stay, hshows, hidle, .inl hplanned⟩
    · obtain ⟨before, stay, after, htasks, hcovers, hsplits, -⟩ := h.splitStayAt_ok hsplit
      obtain ⟨i, hshows⟩ := h.shows_of_mem (by simp [htasks] : stay ∈ s.tasks) hcovers
      refine ⟨i, stay, hshows, hsplits.idle, ?_⟩
      have hinside : stay.start < t :=
        Nat.lt_of_le_of_ne hcovers.1 fun heq => hsplits.inside (Time.eq_iff.mpr heq.symm)
      cases hstatus : stay.status with
      | planned => exact .inl rfl
      | started => exact .inr ⟨rfl, hinside⟩
      | performed => exact (hsplits.unfinished hstatus).elim
  · rintro ⟨index, stay, hshows, hidle, hstatus⟩
    obtain ⟨before, after, htasks, rfl⟩ := exists_split hshows.here
    obtain ⟨⟩ := s
    subst htasks
    by_cases hstart : stay.start = t
    · have hplanned : stay.status = .planned :=
        hstatus.resolve_right fun hlater => Nat.lt_irrefl _ (hstart ▸ hlater.2)
      exact ⟨_, _, hstart ▸ h.insertionPoint_start hidle hplanned⟩
    · have hopen : stay.status ≠ .performed := by
        rcases hstatus with hstatus | ⟨hstatus, -⟩ <;> simp [hstatus]
      exact ⟨_, _, h.insertionPoint_inside hshows.covers ⟨hidle, hopen, Ne.symm hstart⟩⟩

/-- Cutting idle time changes nothing that is shown but the status of what has been begun. -/
theorem Splits.shows {stay : Task R} (h : Splits stay t) (hcovers : stay.Covers t)
    (hvalid : Valid ⟨before ++ stay :: after⟩)
    (hvalid' : Valid ⟨before ++ [stay.headUntil t, stay.tailFrom t] ++ after⟩)
    (hold : Shows ⟨before ++ stay :: after⟩ u index old) :
    ∃ i new, Shows ⟨before ++ [stay.headUntil t, stay.tailFrom t] ++ after⟩ u i new ∧
      Recut t u old new := by
  by_cases hstay : stay.Covers u
  · obtain rfl := (hold.unique (hvalid.shows hstay)).2
    have hstays : old.source = old.target :=
      (hvalid.sound old (by simp)).stays.resolve_left (by simp [Task.not_isDrive h.idle])
    by_cases hlater : t ≤ u
    · have hin : (old.tailFrom t).Covers u := ⟨hlater, hstay.2⟩
      obtain ⟨i, hnew⟩ := hvalid'.shows_of_mem (by simp) hin
      refine ⟨i, _, hnew, rfl, hstays.symm, rfl, ?_⟩
      cases hstatus : old.status with
      | planned => simp [Task.tailFrom]
      | started => simp [Task.tailFrom, h.idle, hcovers, hlater]
      | performed => exact (h.unfinished hstatus).elim
    · have hin : (old.headUntil t).Covers u := ⟨hstay.1, Nat.lt_of_not_le hlater⟩
      obtain ⟨i, hnew⟩ := hvalid'.shows_of_mem (by simp) hin
      exact ⟨i, _, hnew, rfl, rfl, rfl, (if_neg fun hcut => hlater hcut.2.2.2).symm⟩
  · obtain ⟨i, hnew⟩ := hold.elsewhere hvalid' hstay
    refine ⟨i, old, hnew, .refl fun ⟨_, hcut⟩ => hstay ?_⟩
    obtain ⟨j, hshows⟩ := hvalid.shows_of_mem (List.mem_of_getElem? hold.here) hcut
    exact (hshows.unique (hvalid.shows hcovers)).2 ▸ hold.covers

/-- Looking up an instant succeeds exactly within the horizon and names the one task that covers it.
A place for new work can be made at an instant exactly if the task there is idle time that is
planned, or that has been begun before. Planned idle time then begins there, under the index that is
given, and at every instant of the horizon the schedule shows the same work at the same place, with
the same status, but for idle time that had been begun, which is planned from the place on. -/
theorem insertionPoint_leaves_work (hvalid : s.validate = .ok ()) (t : Time) :
    ((∃ index, s.currentIndex t = .ok index) ↔ s.start ≤ t ∧ t < s.finish) ∧
    (∀ index, s.currentIndex t = .ok index ↔ ∃ task, s.Shows t index task) ∧
    ((∃ index s', s.insertionPoint t = .ok (index, s')) ↔
      ∃ index task, s.Shows t index task ∧ task.isStay = true ∧
        (task.status = .planned ∨ task.status = .started ∧ task.start < t)) ∧
    ∀ index s', s.insertionPoint t = .ok (index, s') →
      (∃ stay, s'.tasks[index]? = some stay ∧ stay.isStay = true ∧ stay.status = .planned ∧
        stay.start = t) ∧
      ∀ u, s.start ≤ u → u < s.finish →
        ∃ i old j new, s.Shows u i old ∧ s'.Shows u j new ∧ Recut t u old new := by
  have h : s.ValidOver s.start s.finish := ⟨validate_eq_ok_iff.mp hvalid, rfl, rfl⟩
  refine ⟨h.exists_currentIndex_iff, fun _ => h.currentIndex_eq_ok_iff,
    h.exists_insertionPoint_iff, fun index s' hpoint => ?_⟩
  have h' := (h.insertionPoint hpoint).toValid
  rcases h.insertionPoint_ok hpoint with
    ⟨before, stay, after, htasks, rfl, rfl, hidle, hplanned, rfl⟩ | ⟨first, hsplit⟩
  · refine ⟨⟨stay, by simp [htasks], hidle, hplanned, rfl⟩, fun u hstart hfinish => ?_⟩
    obtain ⟨i, old, hold⟩ := h.exists_shows hstart hfinish
    refine ⟨i, old, i, old, hold, hold, .refl fun ⟨hbegun, hcovers⟩ => ?_⟩
    have hmem : stay ∈ s'.tasks := by simp [htasks]
    obtain ⟨_, hstay⟩ := h.shows_of_mem hmem ⟨Nat.le_refl _, (h.sound stay hmem).lasts⟩
    obtain ⟨_, hsame⟩ := h.shows_of_mem (List.mem_of_getElem? hold.here) hcovers
    obtain rfl := (hsame.unique hstay).2
    simp [hplanned] at hbegun
  · obtain ⟨before, stay, after, htasks, hcovers, hsplits, hparts, rfl⟩ := h.splitStayAt_ok hsplit
    obtain ⟨-, rfl⟩ := Prod.mk.inj hparts
    obtain ⟨⟩ := s
    subst htasks
    refine ⟨⟨stay.tailFrom t, by simp, hsplits.idle, rfl, rfl⟩, fun u hstart hfinish => ?_⟩
    obtain ⟨i, old, hold⟩ := h.exists_shows hstart hfinish
    obtain ⟨j, new, hnew, hrecut⟩ := hsplits.shows hcovers h.toValid h' hold
    exact ⟨i, old, j, new, hold, hnew, hrecut⟩

/-- A place is made in idle time that has been begun. From there on the vehicle stands idle in plan
only, and a place at the end of the horizon is refused with the lookup. -/
theorem insertionPoint_leaves_work_begun :
    let stay (start finish : Nat) (status : TaskStatus) : Task Rat :=
      { Task.stay ⟨0⟩ (.ofSecs start) (.ofSecs finish) with status }
    let pickup : Task Rat := Task.pickup ⟨7⟩ ⟨0⟩ (.ofSecs 50) (.ofSecs 60)
    let idle := stay 10 50 .started
    let s : Schedule Rat := ⟨[stay 0 10 .performed, idle, pickup, stay 60 100 .planned]⟩
    s.validate = .ok () ∧
      (∃ index s', s.insertionPoint (.ofSecs 30) = .ok (index, s')) ∧
      (¬∃ index, s.currentIndex (.ofSecs 100) = .ok index) ∧
      ∀ index s', s.insertionPoint (.ofSecs 30) = .ok (index, s') →
        ∃ j later, s'.Shows (.ofSecs 40) j later ∧ later.status = .planned := by
  intro stay pickup idle s
  have hvalid : s.validate = .ok () := by decide
  obtain ⟨-, -, hopen, hleaves⟩ := insertionPoint_leaves_work hvalid (.ofSecs 30)
  have hbegun (u : Time) (hu : idle.Covers u) : s.Shows u 1 idle :=
    (validate_eq_ok_iff.mp hvalid :
      Valid ⟨[stay 0 10 .performed] ++ idle :: [pickup, stay 60 100 .planned]⟩).shows hu
  refine ⟨hvalid, hopen.mpr ⟨1, _, hbegun _ (by decide), rfl, .inr ⟨rfl, by decide⟩⟩, ?_, ?_⟩
  · rw [(insertionPoint_leaves_work hvalid (.ofSecs 100)).1]
    decide
  · intro index s' hpoint
    obtain ⟨i, old, j, new, hold, hnew, hrecut⟩ :=
      (hleaves index s' hpoint).2 (.ofSecs 40) (by decide) (by decide)
    obtain rfl := (hold.unique (hbegun _ (by decide))).2
    exact ⟨j, new, hnew, hrecut.status.trans (by decide)⟩

end Schedule

end DemandTransport
