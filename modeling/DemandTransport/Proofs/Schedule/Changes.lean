import DemandTransport.Action
import DemandTransport.Proofs.Schedule.Editing

/-!
# Changes keep schedules valid

A change puts tasks into the place of some others. The schedule stays valid and keeps both ends of
its horizon when the new tasks are in order among themselves and meet their neighbours as the old
ones did. Every change of a schedule is of this form, so whatever is done to a new schedule, in any
order and with any success, leaves it valid over the horizon that it was made for.
-/

namespace DemandTransport

variable {R : Type}

/-- A task one status further, with the same work at the same place and time. -/
structure Task.Becomes (task task' : Task R) (status : TaskStatus) : Prop where
  next : task.status.next? = some status
  status : task'.status = status
  kind : task'.kind = task.kind
  start : task'.start = task.start
  finish : task'.finish = task.finish
  source : task'.source = task.source
  target : task'.target = task.target

theorem Task.becomes_advanced {task : Task R} {status : TaskStatus}
    (h : task.status.next? = some status) (t : Time) :
    task.Becomes (task.advanced status t) status := by
  cases status <;> exact ⟨h, rfl, rfl, rfl, rfl, rfl, rfl⟩

section Becomes

variable {task task' : Task R} {status : TaskStatus}

/-- A task that goes one status further is not over. -/
theorem Task.Becomes.not_over (h : task.Becomes task' status) : task.status ≠ .performed := by
  intro hover
  have hnext := h.next
  simp [hover, TaskStatus.next?] at hnext

/-- A task that is started was planned. -/
theorem Task.Becomes.was_planned (h : task.Becomes task' .started) : task.status = .planned := by
  have hnext := h.next
  cases hstatus : task.status <;> simp_all [TaskStatus.next?]

/-- A task that is ended was started. -/
theorem Task.Becomes.was_started (h : task.Becomes task' .performed) : task.status = .started := by
  have hnext := h.next
  cases hstatus : task.status <;> simp_all [TaskStatus.next?]

end Becomes

namespace Schedule

/-- Tasks that can stand between two parts of a schedule in the place of some others. -/
structure Fits (before old mid after : List (Task R)) : Prop where
  /-- Every new task is sound. -/
  sound : ∀ task ∈ mid, task.Sound
  /-- Neighbours among them fit together. -/
  seams : mid.IsChain Task.Precedes
  /-- The first one begins when the first old one did and may follow the task before it. -/
  first : ∀ a ∈ old.head?, ∃ b ∈ mid.head?, b.start = a.start ∧
    ∀ p ∈ before.getLast?, p.Precedes a → p.Precedes b
  /-- The last one ends when the last old one did and may precede the task behind it. -/
  last : ∀ a ∈ old.getLast?, ∃ b ∈ mid.getLast?, b.finish = a.finish ∧
    ∀ n ∈ after.head?, a.Precedes n → b.Precedes n

/-- Tasks that fit take the place of others in a valid schedule. -/
theorem ValidOver.replace {before old mid after : List (Task R)} {start finish : Time}
    (h : ValidOver ⟨before ++ old ++ after⟩ start finish) (hne : old ≠ [])
    (hfits : Fits before old mid after) : ValidOver ⟨before ++ mid ++ after⟩ start finish := by
  obtain ⟨a, ha⟩ : ∃ a, old.head? = some a := ⟨_, List.head?_eq_some_head hne⟩
  obtain ⟨z, hz⟩ : ∃ z, old.getLast? = some z := ⟨_, List.getLast?_eq_some_getLast hne⟩
  obtain ⟨b, hb, hstart, hbefore⟩ := hfits.first a ha
  obtain ⟨y, hy, hfinish, hafter⟩ := hfits.last z hz
  have hmid : mid ≠ [] := by rintro rfl; cases hb
  obtain ⟨hchain, hafterChain, hseamAfter⟩ := List.isChain_append.mp h.seams
  obtain ⟨hbeforeChain, -, hseamBefore⟩ := List.isChain_append.mp hchain
  have hlastOld : z ∈ (before ++ old).getLast? := by
    rw [List.getLast?_append_of_ne_nil _ hne]
    exact hz
  have hlastMid : (before ++ mid).getLast? = some y := by
    rw [List.getLast?_append_of_ne_nil _ hmid]
    exact hy
  refine ⟨⟨by simp [hmid], ?_, ?_⟩, ?_, ?_⟩
  · intro task htask
    rcases List.mem_append.mp htask with htask | htask
    · rcases List.mem_append.mp htask with htask | htask
      · exact h.sound task (by simp [htask])
      · exact hfits.sound task htask
    · exact h.sound task (by simp [htask])
  · refine List.isChain_append.mpr ⟨List.isChain_append.mpr ⟨hbeforeChain, hfits.seams, ?_⟩,
      hafterChain, ?_⟩
    · intro p hp c hc
      cases hb.symm.trans hc
      exact hbefore p hp (hseamBefore p hp a ha)
    · intro c hc n hn
      cases hlastMid.symm.trans hc
      exact hafter n hn (hseamAfter z hlastOld n hn)
  · rw [← h.begins]
    cases before with
    | nil =>
      have hheadOld : (old ++ after).head? = some a := by simp [List.head?_append, ha]
      have hheadMid : (mid ++ after).head? = some b := by
        simp [List.head?_append, Option.mem_def.mp hb]
      simp [Schedule.start, hheadOld, hheadMid, hstart]
    | cons p rest => rfl
  · rw [← h.ends]
    cases hafters : after.getLast? with
    | none =>
      obtain rfl := List.getLast?_eq_none_iff.mp hafters
      simp only [List.append_nil, Schedule.finish, hlastMid, Option.mem_def.mp hlastOld,
        Option.map_some, Option.getD_some, hfinish]
    | some n => simp [Schedule.finish, List.getLast?_append, hafters]

/-- A task that fits takes the place of another one in a valid schedule. -/
theorem ValidOver.replaceOne {before mid after : List (Task R)} {task : Task R}
    {start finish : Time} (h : ValidOver ⟨before ++ task :: after⟩ start finish)
    (hfits : Fits before [task] mid after) : ValidOver ⟨before ++ mid ++ after⟩ start finish := by
  have h' : ValidOver ⟨before ++ [task] ++ after⟩ start finish := by simpa using h
  exact h'.replace (by simp) hfits

/-- A task that differs in neither place nor time, and is planned or performed where the old one
was, fits into its place. -/
theorem Fits.same {before after : List (Task R)} {task new : Task R} (hsound : new.Sound)
    (hstart : new.start = task.start) (hfinish : new.finish = task.finish)
    (hsource : new.source = task.source) (htarget : new.target = task.target)
    (hplanned : ∀ p ∈ before.getLast?, p.status = .performed ∨ task.status = .planned →
      p.status = .performed ∨ new.status = .planned)
    (hdone : ∀ n ∈ after.head?, task.status = .performed ∨ n.status = .planned →
      new.status = .performed ∨ n.status = .planned) : Fits before [task] [new] after where
  sound := by simpa using hsound
  seams := .singleton _
  first := by
    rintro a ⟨⟩
    exact ⟨new, rfl, hstart, fun p hp hprecedes => ⟨hprecedes.time.trans hstart.symm,
      hprecedes.place.trans hsource.symm, hplanned p hp hprecedes.order⟩⟩
  last := by
    rintro a ⟨⟩
    exact ⟨new, rfl, hfinish, fun n hn hprecedes => ⟨hfinish.trans hprecedes.time,
      htarget.trans hprecedes.place, hdone n hn hprecedes.order⟩⟩

/-! ## New schedules -/

/-- A schedule that is one stay over its whole horizon, with or without energy. -/
def IsNew (s : Schedule R) (start finish : Time) : Prop :=
  ∃ node, idle node start finish = .ok s ∨ ∃ kwh, idleWithEnergy node start finish kwh = .ok s

/-- A new schedule holds one planned stay over its horizon. -/
theorem IsNew.tasks {s : Schedule R} {start finish : Time} (h : s.IsNew start finish) :
    start < finish ∧ ∃ node energy,
      s.tasks = [{ Task.stay node start finish with energy := energy }] := by
  have hnew {node : NodeId} {t : Schedule R} (hidle : idle node start finish = .ok t) :
      start < finish ∧ t = ⟨[Task.stay node start finish]⟩ := by
    unfold idle at hidle
    split_ifs at hidle with hempty
    refine ⟨by simp only [Time.le_iff, Time.lt_iff] at *; omega, ?_⟩
    exact (Except.ok.inj hidle).symm
  obtain ⟨node, hidle | ⟨kwh, hidle⟩⟩ := h
  · obtain ⟨hlasts, rfl⟩ := hnew hidle
    exact ⟨hlasts, node, none, rfl⟩
  · unfold idleWithEnergy at hidle
    cases hbase : (idle node start finish : Except ScheduleError (Schedule R)) with
    | error e => simp [hbase, Except.map] at hidle
    | ok t =>
      obtain ⟨hlasts, rfl⟩ := hnew hbase
      simp only [hbase, Except.map, Except.ok.injEq] at hidle
      subst hidle
      exact ⟨hlasts, node, some kwh, rfl⟩

/-- A new schedule is valid over its horizon. -/
theorem IsNew.validOver {s : Schedule R} {start finish : Time} (h : s.IsNew start finish) :
    s.ValidOver start finish := by
  obtain ⟨hlasts, node, energy, htasks⟩ := h.tasks
  obtain ⟨⟩ := s
  subst htasks
  refine ⟨⟨by simp, ?_, .singleton _⟩, rfl, rfl⟩
  simpa using ⟨hlasts, .inr rfl⟩

/-! ## Every change keeps validity -/

/-- The part of a planned stay that a task takes, with what is left behind it. -/
theorem fits_of_carves [Scalar R] {before after : List (Task R)} {stay task : Task R}
    (h : Carves stay task after) (hstays : task.kind.isDrive = true ∨ task.source = task.target) :
    Fits before [stay] (task :: remainder stay task) after := by
  have hsound : task.Sound := ⟨h.lasts, hstays⟩
  have hfirst : ∀ a ∈ [stay].head?, ∃ b ∈ (task :: remainder stay task).head?,
      b.start = a.start ∧ ∀ p ∈ before.getLast?, p.Precedes a → p.Precedes b := by
    rintro a ⟨⟩
    exact ⟨task, rfl, h.starts, fun p _ hp =>
      ⟨hp.time.trans h.starts.symm, hp.place.trans h.place.symm, .inr h.fresh⟩⟩
  have hplanned {n : Task R} (hn : stay.Precedes n) : n.status = .planned :=
    hn.order.resolve_left (by simp [h.waiting])
  by_cases hall : task.finish = stay.finish
  · rw [remainder_eq_nil hall] at hfirst ⊢
    refine ⟨by simpa using hsound, .singleton _, hfirst, ?_⟩
    rintro a ⟨⟩
    refine ⟨task, rfl, hall, fun n hn hprecedes => ?_⟩
    have hafter : after ≠ [] := by rintro rfl; cases hn
    exact ⟨hall.trans hprecedes.time, (h.next hafter).trans hprecedes.place,
      .inr (hplanned hprecedes)⟩
  · obtain ⟨rest, hrest, -, hstatus, hstart, hfinish, hsource, htarget, -⟩ := remainder_of_ne hall
    rw [h.waiting] at hstatus
    rw [hrest] at hfirst ⊢
    have hrestSound : rest.Sound := by
      refine ⟨?_, .inr (hsource.trans htarget.symm)⟩
      have hfits := h.fits
      simp only [Time.le_iff, Time.lt_iff, Time.eq_iff] at *
      omega
    refine ⟨by simpa using ⟨hsound, hrestSound⟩, .cons_cons ⟨hstart.symm, hsource.symm,
      .inr hstatus⟩ (.singleton _), hfirst, ?_⟩
    rintro a ⟨⟩
    refine ⟨rest, rfl, hfinish, fun n hn hprecedes => ?_⟩
    have hafter : after ≠ [] := by rintro rfl; cases hn
    exact ⟨hfinish.trans hprecedes.time, (htarget.trans (h.next hafter)).trans hprecedes.place,
      .inr (hplanned hprecedes)⟩

/-- A task that goes through in its place keeps a schedule valid, if only drives change places. -/
theorem ValidOver.insert [Scalar R] {s s' : Schedule R} {start finish : Time} {task : Task R}
    {index given : Nat} (h : s.ValidOver start finish)
    (hstays : task.kind.isDrive = true ∨ task.source = task.target)
    (hinsert : s.insert task index = .ok (given, s')) : s'.ValidOver start finish := by
  obtain ⟨before, stay, after, htasks, -, hcarves, -, rfl⟩ := insert_ok hinsert
  obtain ⟨⟩ := s
  subst htasks
  exact h.replaceOne (fits_of_carves hcarves hstays)

/-- The two parts of a stay that is split inside. -/
theorem fits_of_splits [Scalar R] {before after : List (Task R)} {stay : Task R} {t : Time}
    (h : Splits stay t) (hcovers : stay.Covers t) (hstays : stay.source = stay.target) :
    Fits before [stay] [stay.headUntil t, stay.tailFrom t] after := by
  refine ⟨?_, .cons_cons ⟨rfl, rfl, .inr rfl⟩ (.singleton _), ?_, ?_⟩
  · intro task htask
    obtain ⟨hstart, hfinish⟩ := hcovers
    have hinside := h.inside
    rcases List.mem_pair.mp htask with rfl | rfl
    · refine ⟨?_, .inr hstays⟩
      simp only [Task.headUntil, Time.le_iff, Time.lt_iff, Time.eq_iff, ne_eq] at *
      omega
    · exact ⟨hfinish, .inr rfl⟩
  · rintro a ⟨⟩
    exact ⟨_, rfl, rfl, fun p _ hp => ⟨hp.time, hp.place, hp.order⟩⟩
  · rintro a ⟨⟩
    exact ⟨_, rfl, rfl, fun n _ hn =>
      ⟨hn.time, hn.place, .inr (hn.order.resolve_left h.unfinished)⟩⟩

/-- Cutting an idle stretch in two keeps a schedule valid. -/
theorem ValidOver.splitStayAt [Scalar R] {s s' : Schedule R} {start finish t : Time}
    {parts : Nat × Nat} (h : s.ValidOver start finish)
    (hsplit : s.splitStayAt t = .ok (parts, s')) : s'.ValidOver start finish := by
  obtain ⟨before, stay, after, htasks, hcovers, hsplits, -, rfl⟩ := h.toValid.splitStayAt_ok hsplit
  obtain ⟨⟩ := s
  subst htasks
  have hsound : stay.Sound := h.sound stay (by simp)
  have hstays := hsound.stays.resolve_left (by simp [Task.not_isDrive hsplits.idle])
  exact h.replaceOne (fits_of_splits hsplits hcovers hstays)

theorem ValidOver.insertionPoint [Scalar R] {s s' : Schedule R} {start finish t : Time}
    {index : Nat} (h : s.ValidOver start finish) (hpoint : s.insertionPoint t = .ok (index, s')) :
    s'.ValidOver start finish := by
  rcases h.toValid.insertionPoint_ok hpoint with
    ⟨-, -, -, -, -, -, -, -, rfl⟩ | ⟨first, hsplit⟩
  · exact h
  · exact h.splitStayAt hsplit

/-- A task behind tasks that are over can go one status further. -/
theorem ValidOver.becomes {before after : List (Task R)} {task task' : Task R}
    {status : TaskStatus} {start finish : Time}
    (h : ValidOver ⟨before ++ task :: after⟩ start finish)
    (hdone : ∀ a ∈ before, a.status = .performed) (hbecomes : task.Becomes task' status) :
    ValidOver ⟨before ++ task' :: after⟩ start finish := by
  have hsound : task.Sound := h.sound task (by simp)
  have hfits : Fits before [task] [task'] after := by
    refine .same ⟨?_, ?_⟩ hbecomes.start hbecomes.finish hbecomes.source hbecomes.target ?_ ?_
    · rw [hbecomes.start, hbecomes.finish]
      exact hsound.lasts
    · rw [hbecomes.kind, hbecomes.source, hbecomes.target]
      exact hsound.stays
    · exact fun p hp _ => .inl (hdone p (List.mem_of_getLast? hp))
    · intro n hn horder
      refine .inr (horder.resolve_left fun hperformed => ?_)
      exact hbecomes.not_over hperformed
  simpa using h.replaceOne hfits

theorem ValidOver.advance {s s' : Schedule R} {start finish t : Time} {index : Nat}
    {status : TaskStatus} {task' : Task R} (h : s.ValidOver start finish)
    (hadvance : s.advance index status t = .ok (task', s')) : s'.ValidOver start finish := by
  obtain ⟨before, task, after, htasks, -, hnext, hprevious, rfl, rfl⟩ := advance_ok hadvance
  obtain ⟨⟩ := s
  subst htasks
  refine h.becomes ?_ (Task.becomes_advanced hnext t)
  cases status with
  | planned => cases hstatus : task.status <;> simp [hstatus, TaskStatus.next?] at hnext
  | started =>
    cases hlast : before.getLast? with
    | none => simp [List.getLast?_eq_none_iff.mp hlast]
    | some last =>
      have hdone := hprevious rfl last hlast
      obtain ⟨front, rfl⟩ := List.getLast?_eq_some_iff.mp hlast
      have hvalid : Valid ⟨front ++ last :: (task :: after)⟩ := by simpa using h.toValid
      intro a ha
      rcases List.mem_append.mp ha with ha | ha
      · exact hvalid.performed_before (by simp [hdone]) a ha
      · rw [List.mem_singleton.mp ha]
        exact hdone
  | performed =>
    refine h.toValid.performed_before fun hplanned => ?_
    simp [hplanned, TaskStatus.next?] at hnext

/-- Taking tasks back keeps a schedule valid: the vehicle waits instead. -/
theorem ValidOver.retractFrom {s s' : Schedule R} {start finish : Time} {index : Nat}
    {energy : Option R} (h : s.ValidOver start finish)
    (hretract : s.retractFrom index energy = .ok s') : s'.ValidOver start finish := by
  obtain ⟨before, first, after, htasks, -, hplanned, rfl⟩ := retractFrom_ok hretract
  obtain ⟨⟩ := s
  subst htasks
  obtain ⟨z, hz⟩ : ∃ z, (first :: after).getLast? = some z :=
    ⟨_, List.getLast?_eq_some_getLast (by simp)⟩
  have hends : z.finish = Schedule.finish ⟨before ++ first :: after⟩ := by
    simp [Schedule.finish, List.getLast?_append, hz]
  have hlasts : first.start < z.finish := by
    have hfirst := (h.sound first (by simp)).lasts
    rcases List.mem_cons.mp (List.mem_of_getLast? hz) with rfl | hafter
    · exact hfirst
    · have hearlier := (h.toValid.earlier.2 z hafter).1
      have hz := (h.sound z (by simp [hafter])).lasts
      simp only [Time.le_iff, Time.lt_iff] at *
      omega
  have hfits : Fits before (first :: after)
      [reclaimed before first (Schedule.finish ⟨before ++ first :: after⟩) energy] [] := by
    refine ⟨?_, .singleton _, ?_, ?_⟩
    · simpa [← hends] using ⟨hlasts, .inr rfl⟩
    · rintro a ⟨⟩
      exact ⟨_, rfl, rfl, fun p _ hp => ⟨hp.time, hp.place, .inr rfl⟩⟩
    · intro a ha
      cases hz.symm.trans ha
      exact ⟨_, rfl, hends.symm, by simp⟩
  simpa using ValidOver.replace (by simpa using h) (by simp) hfits

theorem ValidOver.vacate {s s' : Schedule R} {start finish : Time} {index : Nat}
    (h : s.ValidOver start finish) (hvacate : s.vacate index = .ok s') :
    s'.ValidOver start finish := by
  obtain ⟨before, task, after, htasks, -, -, hdrive, rfl⟩ := vacate_ok hvacate
  obtain ⟨⟩ := s
  subst htasks
  have hsound : task.Sound := h.sound task (by simp)
  have hstays := hsound.stays.resolve_left (by simp [hdrive])
  have hfits : Fits before [task] [{ task with kind := .stay none }] after :=
    .same ⟨hsound.lasts, .inr hstays⟩ rfl rfl rfl rfl (fun _ _ => id) fun _ _ => id
  simpa using h.replaceOne hfits

theorem ValidOver.overrideEnergy {s s' : Schedule R} {start finish : Time} {index : Nat} {kwh : R}
    (h : s.ValidOver start finish) (henergy : s.overrideEnergy index kwh = .ok s') :
    s'.ValidOver start finish := by
  obtain ⟨before, task, after, htasks, -, -, rfl⟩ := overrideEnergy_ok henergy
  obtain ⟨⟩ := s
  subst htasks
  have hsound : task.Sound := h.sound task (by simp)
  have hfits : Fits before [task] [task.withEnergy kwh] after :=
    .same ⟨hsound.lasts, hsound.stays⟩ rfl rfl rfl rfl (fun _ _ => id) fun _ _ => id
  simpa using h.replaceOne hfits

end Schedule

end DemandTransport
