import DemandTransport.Proofs.Dispatch.Moves
import DemandTransport.Proofs.Dispatch.Retraction
import DemandTransport.Proofs.Execution.Course

/-!
# Appointments

A request that is planned gets an appointment: a time at which boarding begins and one at which
alighting does. The times are kept in the registry, and again in the schedule of the vehicle, where
they are the begins of two tasks. What is done to schedules afterwards moves neither of these tasks,
and what the registry notes when they are over is told by the tasks. So the two never disagree: what
has happened to a passenger happened at the appointed time, and what is still to happen will.
-/

namespace DemandTransport

variable {R : Type}

/-- When one end of a trip has been appointed to begin. -/
def RequestEntry.planned? (entry : RequestEntry) : TripEnd → Option Time
  | .boarding => entry.plannedPickup
  | .alighting => entry.plannedDropoff

/-- Seconds that one end of a trip takes. -/
def DispatchConfig.secs (config : DispatchConfig) : TripEnd → Nat
  | .boarding => config.pickupSecs
  | .alighting => config.dropoffSecs

/-! ## Entries -/

/-- The appointment of a passenger, and how far it has been kept. Some instants have `passed`. -/
structure RequestEntry.Appointment (config : DispatchConfig) (passed : Time → Prop) (now : Time)
    (entry : RequestEntry) (pickup dropoff : Time) : Prop where
  boards : entry.plannedPickup = some pickup
  alights : entry.plannedDropoff = some dropoff
  /-- Nobody boards before having asked to. -/
  submitted : entry.request.submitted ≤ pickup
  /-- Boarding begins when the passenger wants to. -/
  window : ∀ window ∈ entry.request.window, window.contains pickup = true
  /-- Boarding is over when alighting begins. -/
  ride : pickup.secs + config.pickupSecs ≤ dropoff.secs
  /-- Alighting is over before the last instant there is. -/
  horizon : dropoff.secs + config.dropoffSecs < Time.last.secs
  /-- Boarding was over as soon as had been appointed. -/
  boarded : ∀ t ∈ entry.pickedUpAt, t = pickup.offset config.pickupSecs
  /-- So was alighting. -/
  alighted : ∀ t ∈ entry.droppedOffAt, t = dropoff.offset config.dropoffSecs
  /-- The end of the trip has not passed, or the trip has come to it, or it was called off before
  that had passed. -/
  outcome : (entry.status = .planned ∧
      ∀ t, passed t → t < dropoff.offset config.dropoffSecs) ∨
    entry.status = .performed ∨
    ∃ why t, entry.status = .cancelled (.withdrawn why) ∧ entry.cancelledAt = some t ∧ t ≤ now ∧
      ∀ s, passed s → dropoff.offset config.dropoffSecs ≤ s → t ≤ s

/-- An entry that is as it should be at some time. -/
structure RequestEntry.OnTime (config : DispatchConfig) (passed : Time → Prop) (now : Time)
    (entry : RequestEntry) : Prop where
  /-- The request has been submitted by now. -/
  submitted : entry.request.submitted ≤ now
  /-- Its window does not close before it opens. -/
  window : ∀ window ∈ entry.request.window, window.earliest ≤ window.latest
  /-- Without a plan it has neither vehicle nor times. -/
  unplanned : entry.status = .unplanned → entry.vehicle = none ∧ entry.pickedUpAt = none ∧
    entry.droppedOffAt = none ∧ ∀ e, entry.planned? e = none
  /-- With a vehicle it has an appointment. -/
  appointment : entry.vehicle.isSome →
    ∃ pickup dropoff, entry.Appointment config passed now pickup dropoff

namespace RequestEntry

variable {config : DispatchConfig} {passed passed' : Time → Prop} {now now' : Time}
  {entry : RequestEntry}

namespace Appointment

variable {pickup dropoff t : Time}

/-- The end of boarding is not cut off, since alighting begins later. -/
theorem boarding_secs (h : entry.Appointment config passed now pickup dropoff) :
    (pickup.offset config.pickupSecs).secs = pickup.secs + config.pickupSecs := by
  have hride := h.ride
  have hlimit := dropoff.secs_le
  simp only [Time.secs_offset]
  omega

/-- Nor is the end of alighting. -/
theorem alighting_secs (h : entry.Appointment config passed now pickup dropoff) :
    (dropoff.offset config.dropoffSecs).secs = dropoff.secs + config.dropoffSecs := by
  have hlast := h.horizon
  simp only [Time.secs_offset, Time.last] at hlast ⊢
  omega

/-- A trip whose end has passed has been performed or called off before that. -/
theorem performed_or_withdrawn (h : entry.Appointment config passed now pickup dropoff)
    (hpassed : passed t) (hend : dropoff.offset config.dropoffSecs ≤ t) :
    entry.status = .performed ∨
      ∃ why s, entry.status = .cancelled (.withdrawn why) ∧ entry.cancelledAt = some s ∧ s ≤ t := by
  rcases h.outcome with ⟨-, hopen⟩ | hperformed | ⟨why, s, hstatus, hcancelled, -, hpast⟩
  · exact (Nat.not_le_of_lt (hopen t hpassed) hend).elim
  · exact .inl hperformed
  · exact .inr ⟨why, s, hstatus, hcancelled, hpast t hpassed hend⟩

end Appointment

/-- Time goes on. -/
theorem OnTime.later (h : entry.OnTime config passed now) (hnow : now ≤ now') :
    entry.OnTime config passed now' where
  submitted := Nat.le_trans h.submitted hnow
  window := h.window
  unplanned := h.unplanned
  appointment hvehicle := by
    obtain ⟨pickup, dropoff, happointment⟩ := h.appointment hvehicle
    refine ⟨pickup, dropoff, { happointment with outcome := ?_ }⟩
    refine happointment.outcome.imp_right (.imp_right ?_)
    rintro ⟨why, t, hstatus, hcancelled, hle, hpast⟩
    exact ⟨why, t, hstatus, hcancelled, Nat.le_trans hle hnow, hpast⟩

/-- The present passes, when no planned trip should have come to its end by then. -/
theorem OnTime.pass (h : entry.OnTime config passed now)
    (hpassed : ∀ t, passed' t → passed t ∨ t = now)
    (hopen : ∀ dropoff, entry.status = .planned → entry.plannedDropoff = some dropoff →
      now < dropoff.offset config.dropoffSecs) : entry.OnTime config passed' now where
  submitted := h.submitted
  window := h.window
  unplanned := h.unplanned
  appointment hvehicle := by
    obtain ⟨pickup, dropoff, happointment⟩ := h.appointment hvehicle
    refine ⟨pickup, dropoff, { happointment with outcome := ?_ }⟩
    rcases happointment.outcome with ⟨hplanned, hbefore⟩ | hperformed |
      ⟨why, t, hstatus, hcancelled, hle, hpast⟩
    · refine .inl ⟨hplanned, fun t ht => ?_⟩
      rcases hpassed t ht with ht | rfl
      · exact hbefore t ht
      · exact hopen dropoff hplanned happointment.alights
    · exact .inr (.inl hperformed)
    · refine .inr (.inr ⟨why, t, hstatus, hcancelled, hle, fun s hs hend => ?_⟩)
      rcases hpassed s hs with hs | rfl
      · exact hpast s hs hend
      · exact hle

/-- An end of a trip that is over when it should be. -/
theorem OnTime.visited {e : TripEnd} {start : Time} (h : entry.OnTime config passed now)
    (hplanned : entry.status = .planned) (hstart : entry.planned? e = some start) :
    (entry.visited (start.offset (config.secs e)) e).OnTime config passed now := by
  have hvehicle : (entry.visited (start.offset (config.secs e)) e).vehicle = entry.vehicle := by
    cases e <;> rfl
  refine ⟨?_, ?_, ?_, fun hsome => ?_⟩
  · cases e <;> exact h.submitted
  · cases e <;> exact h.window
  · intro hstatus
    cases e <;> simp [RequestEntry.visited, hplanned] at hstatus
  · rw [hvehicle] at hsome
    obtain ⟨pickup, dropoff, happointment⟩ := h.appointment hsome
    refine ⟨pickup, dropoff, ?_⟩
    cases e with
    | boarding =>
      obtain rfl : pickup = start := Option.some.inj (happointment.boards.symm.trans hstart)
      exact { happointment with boarded := by simp [RequestEntry.visited, DispatchConfig.secs] }
    | alighting =>
      obtain rfl : dropoff = start := Option.some.inj (happointment.alights.symm.trans hstart)
      exact { happointment with
        alighted := by simp [RequestEntry.visited, DispatchConfig.secs]
        outcome := .inr (.inl rfl) }

/-- A trip is called off, if it was planned before its end has passed. -/
theorem OnTime.cancelled (h : entry.OnTime config passed now) {reason : CancelReason}
    (hreason : entry.status = .unplanned ∨
      entry.status = .planned ∧ ∃ why, reason = .withdrawn why) :
    { entry with status := .cancelled reason, cancelledAt := some now : RequestEntry }.OnTime
      config passed now where
  submitted := h.submitted
  window := h.window
  unplanned hstatus := by cases hstatus
  appointment hvehicle := by
    rcases hreason with hstatus | ⟨hstatus, why, rfl⟩
    · have hnone := (h.unplanned hstatus).1
      simp [hnone] at hvehicle
    · obtain ⟨pickup, dropoff, happointment⟩ := h.appointment hvehicle
      refine ⟨pickup, dropoff, { happointment with outcome := ?_ }⟩
      have hopen : ∀ t, passed t → t < dropoff.offset config.dropoffSecs := by
        rcases happointment.outcome with ⟨-, hopen⟩ | hperformed | ⟨_, _, hcancelled, -⟩
        · exact hopen
        · simp [hstatus] at hperformed
        · simp [hstatus] at hcancelled
      refine .inr (.inr ⟨why, now, rfl, rfl, Nat.le_refl _, fun s hs hend => ?_⟩)
      exact (Nat.not_le_of_lt (hopen s hs) hend).elim

end RequestEntry

/-! ## Schedules -/

/-- Every visit in a schedule takes place when the registry says. -/
def Schedule.Keeps (config : DispatchConfig) (registry : Registry) (s : Schedule R) : Prop :=
  ∀ task ∈ s.tasks, ∀ e id, task.kind = e.kind R id →
    ∃ entry, registry.find? id = some entry ∧ entry.planned? e = some task.start ∧
      task.finish = task.start.offset (config.secs e)

/-- The visits in a schedule are visits of another one, at the same times. -/
def Schedule.VisitsOf (s s' : Schedule R) : Prop :=
  ∀ task ∈ s'.tasks, task.kind.request? ≠ none →
    ∃ old ∈ s.tasks, old.kind = task.kind ∧ old.start = task.start ∧ old.finish = task.finish

theorem TripEnd.request?_kind (e : TripEnd) (id : RequestId) :
    (e.kind R id).request? = some id := by
  cases e <;> rfl

namespace Schedule

variable {config : DispatchConfig} {registry registry' : Registry} {s s' t : Schedule R}

theorem Keeps.visitsOf (h : s.Keeps config registry) (hvisits : s.VisitsOf s') :
    s'.Keeps config registry := by
  intro task htask e id hkind
  obtain ⟨old, hold, hkind', hstart, hfinish⟩ :=
    hvisits task htask (by simp [hkind, e.request?_kind])
  rw [← hstart, ← hfinish]
  exact h old hold e id (hkind'.trans hkind)

theorem VisitsOf.trans (h : s.VisitsOf s') (h' : s'.VisitsOf t) : s.VisitsOf t := by
  intro task htask hrequest
  obtain ⟨mid, hmid, hkind, hstart, hfinish⟩ := h' task htask hrequest
  obtain ⟨old, hold, hkind', hstart', hfinish'⟩ := h mid hmid (hkind ▸ hrequest)
  exact ⟨old, hold, hkind'.trans hkind, hstart'.trans hstart, hfinish'.trans hfinish⟩

/-- A schedule in which all other tasks are old ones has no new visit. -/
theorem VisitsOf.of_mem (h : ∀ task ∈ s'.tasks, task.kind.request? = none ∨ task ∈ s.tasks) :
    s.VisitsOf s' :=
  fun task htask hrequest => ⟨task, (h task htask).resolve_left hrequest, rfl, rfl, rfl⟩

/-- A new entry that is appointed to the same times leaves them kept. -/
theorem Keeps.becomes {entry' : RequestEntry} (h : s.Keeps config registry)
    (hbecomes : registry.Becomes registry' entry')
    (hsame : ∀ entry, registry.find? entry'.id = some entry → ∀ e t,
      entry.planned? e = some t → entry'.planned? e = some t) : s.Keeps config registry' := by
  intro task htask e id hkind
  obtain ⟨entry, hfind, hstart, hfinish⟩ := h task htask e id hkind
  by_cases hid : id = entry'.id
  · subst hid
    exact ⟨entry', by rw [hbecomes.find, if_pos rfl], hsame entry hfind e _ hstart, hfinish⟩
  · exact ⟨entry, by rw [hbecomes.find, if_neg hid, hfind], hstart, hfinish⟩

/-- Tasks that are turned into idle time are no visits any more. -/
theorem visitsOf_vacate {index : Nat} (h : s.vacate index = .ok s') : s.VisitsOf s' := by
  obtain ⟨before, task, after, htasks, -, -, -, rfl⟩ := vacate_ok h
  have hold : ∀ other ∈ before ++ task :: after, other.kind.request? = none ∨ other ∈ s.tasks :=
    fun other hother => .inr (htasks ▸ hother)
  exact .of_mem (forall_mem_replace hold (.inl rfl))

end Schedule

namespace Vehicle

variable [Scalar R] {v v' : Vehicle R}

/-- Taking a request back moves no visit. -/
theorem Retracted.visitsOf (h : v.Retracted v') : v.schedule.VisitsOf v'.schedule := by
  cases h with
  | vacated hboarding halighting hsame =>
    rw [hsame]
    exact (Schedule.visitsOf_vacate hboarding).trans (Schedule.visitsOf_vacate halighting)
  | @reclaimed before rest first htasks hplanned hsame =>
    rw [hsame]
    refine .of_mem fun task htask => ?_
    rcases List.mem_append.mp htask with hbefore | hidle
    · exact .inr (by simp [htasks, hbefore])
    · rw [List.mem_singleton.mp hidle]
      exact .inl rfl

/-- The visits of a vehicle into whose schedule tasks have been written are its old ones and those
of the tasks. -/
theorem Written.mem_of_visit {before tasks : List (Task R)} {stay task : Task R} {depart : Time}
    (h : Written before stay depart tasks v v') (htask : task ∈ v'.schedule.tasks)
    (hrequest : task.kind.request? ≠ none) : task ∈ v.schedule.tasks ∨ task ∈ tasks := by
  have hidle {other : Task R} (hstay : other.isStay = true) : other.kind.request? = none :=
    Task.request?_eq_none (.inl hstay)
  rw [h.new] at htask
  simp only [List.mem_append] at htask
  rcases htask with ((hbefore | hpart) | hnew) | hleft
  · exact .inl (by simp [h.old, hbefore])
  · exact (hrequest (hidle (Task.partBefore_isStay h.idle _ task hpart))).elim
  · exact .inr hnew
  · exact (hrequest (hidle (Schedule.leftover_isStay (Task.partFrom_isStay h.idle _) _ task
      hleft))).elim

end Vehicle

/-- A beat moves no visit. -/
theorem Beat.visitsOf [Scalar R] {v v' : Vehicle R} {now : Time} {pool pool' : ChargerPool R}
    {event : TaskEvent R} (h : Beat now v pool event v' pool') :
    v.schedule.VisitsOf v'.schedule := by
  obtain ⟨before, after, task, task', htasks, -, hbecomes, -, hvehicle, -⟩ := h
  unfold Schedule.VisitsOf
  rw [htasks, hvehicle.tasks]
  refine forall_mem_replace (fun other hother _ => ⟨other, hother, rfl, rfl, rfl⟩) fun _ => ?_
  exact ⟨task, by simp, hbecomes.kind.symm, hbecomes.start.symm, hbecomes.finish.symm⟩

/-! ## Plans -/

/-- When a plan lets one end of its trip begin. -/
def Insertion.visitAt (plan : Insertion R) : TripEnd → Time
  | .boarding => plan.pickupAt
  | .alighting => plan.dropoffAt

/-- Boarding begins when the vehicle has arrived and the window is open. -/
theorem Request.boarding_window {request : Request} {arrival pickupAt : Time} {wait : List (Task R)}
    (h : request.boarding arrival = (.ok (wait, pickupAt) :
      Except (RejectionReason R) (List (Task R) × Time)))
    (hwindow : ∀ window ∈ request.window, window.earliest ≤ window.latest) :
    ∀ window ∈ request.window, window.contains pickupAt = true := by
  intro window hsome
  have hopens := hwindow window hsome
  unfold boarding at h
  rw [Option.mem_def.mp hsome] at h
  unfold PickupWindow.contains
  split at h
  · rename_i hnone
    cases hnone
  next hsame =>
    cases hsame
    split at h
    · cases h
    next hintime =>
      split at h
      · cases h
        simpa using ⟨Nat.le_refl _, hopens⟩
      next hopen =>
        cases h
        simp only [Time.le_iff, Time.lt_iff, Bool.and_eq_true, decide_eq_true_eq] at *
        omega

section Plans

variable [Scalar R] {ctx : DispatchContext R} {v : Vehicle R} {request : Request}
  {plan : Insertion R}

/-- The times of a plan: boarding begins after the present, alighting when boarding is over, and the
trip ends before the last instant there is. -/
theorem Vehicle.evaluate_times (hctx : Dispatcher.Ready ctx.config ctx.router)
    (hlast : v.schedule.finish < .last) (h : v.evaluate ctx request = .ok plan) :
    ctx.now ≤ plan.pickupAt ∧
      plan.pickupAt.secs + ctx.config.pickupSecs ≤ plan.dropoffAt.secs ∧
      plan.dropoffAt.secs + ctx.config.dropoffSecs < Time.last.secs := by
  obtain ⟨slot, approach, ride, wait, _, hplan⟩ := evaluate_ok h
  obtain ⟨_, _, hlies⟩ := openSlot?_eq_some hplan.opens
  have hnow := hlies.future
  have harrives := (routeLeg?_joins hctx.router hplan.approaches).1.arrival
  have hrides := (routeLeg?_joins hctx.router hplan.rides).1.arrival
  have hwaits := (Request.boarding_ok hplan.boards).1.le
  have hfits := hplan.fits
  rw [openSlot?_limit hplan.opens] at hfits
  rw [hplan.alights]
  simp only [Time.le_iff, Time.lt_iff, Time.secs_offset, Time.last] at *
  omega

/-- The visits of a plan are those of its request, at the times of the plan. -/
theorem Vehicle.evaluate_visits (h : v.evaluate ctx request = .ok plan) :
    ∀ task ∈ plan.tasks, ∀ e id, task.kind = e.kind R id → id = request.id ∧
      task.start = plan.visitAt e ∧ task.finish = task.start.offset (ctx.config.secs e) := by
  obtain ⟨slot, approach, ride, wait, f, hplan⟩ := evaluate_ok h
  obtain ⟨-, hwait⟩ := Request.boarding_ok hplan.boards
  intro task htask e id hkind
  rw [hplan.tasks] at htask
  obtain ⟨plain, hplain, rfl⟩ := List.mem_map.mp htask
  rw [hplan.keeps.kind] at hkind
  rw [hplan.keeps.start, hplan.keeps.finish]
  have hnone {other : Task R} (hidle : other.isStay = true ∨ other.kind.isDrive = true) :
      other.kind ≠ e.kind R id := fun hsame => by
    have hrequest := Task.request?_eq_none hidle
    simp [hsame, e.request?_kind] at hrequest
  simp only [serviceTasks, List.mem_append, List.mem_singleton] at hplain
  rcases hplain with (((hdrive | hstay) | rfl) | hdrive) | rfl
  · exact (hnone (.inr (approach.drives_isDrive plain hdrive)) hkind).elim
  · exact (hnone (.inl (hwait plain hstay)) hkind).elim
  · obtain ⟨rfl, rfl⟩ :=
      TripEnd.kind_inj.mp (show TripEnd.boarding.kind R request.id = _ from hkind)
    exact ⟨rfl, rfl, rfl⟩
  · exact (hnone (.inr (ride.drives_isDrive plain hdrive)) hkind).elim
  · obtain ⟨rfl, rfl⟩ :=
      TripEnd.kind_inj.mp (show TripEnd.alighting.kind R request.id = _ from hkind)
    exact ⟨rfl, hplan.alights.symm, rfl⟩

/-- A plan is an appointment, with which the request is on time. -/
theorem RequestEntry.OnTime.planned {passed : Time → Prop} {entry : RequestEntry}
    (h : entry.OnTime ctx.config passed ctx.now) (hstatus : entry.status = .unplanned)
    (hctx : Dispatcher.Ready ctx.config ctx.router) (hpassed : ∀ t, passed t → t ≤ ctx.now)
    (hlast : v.schedule.finish < .last) (heval : v.evaluate ctx entry.request = .ok plan) :
    { entry with
      status := .planned, vehicle := some v.id, plannedPickup := some plan.pickupAt
      plannedDropoff := some plan.dropoffAt : RequestEntry }.OnTime ctx.config passed ctx.now where
  submitted := h.submitted
  window := h.window
  unplanned hstatus := by cases hstatus
  appointment _ := by
    obtain ⟨hnow, hride, hhorizon⟩ := Vehicle.evaluate_times hctx hlast heval
    obtain ⟨-, hwaits, halighted, -⟩ := h.unplanned hstatus
    obtain ⟨_, _, _, _, _, hplan⟩ := Vehicle.evaluate_ok heval
    refine ⟨plan.pickupAt, plan.dropoffAt, rfl, rfl, Nat.le_trans h.submitted hnow,
      Request.boarding_window hplan.boards h.window, hride, hhorizon, by simp [hwaits],
      by simp [halighted], .inl ⟨rfl, fun t ht => ?_⟩⟩
    have hbefore := hpassed t ht
    have hdropoff := hctx.dropoff
    simp only [Time.le_iff, Time.lt_iff, Time.secs_offset, Time.last] at *
    omega

end Plans

/-! ## Vehicles and registry -/

/-- Every entry is on time, and every schedule keeps the appointments. -/
structure Punctual (config : DispatchConfig) (passed : Time → Prop) (now : Time)
    (vehicles : List (Vehicle R)) (registry : Registry) : Prop where
  entries : ∀ id entry, registry.find? id = some entry → entry.OnTime config passed now
  schedules : ∀ v ∈ vehicles, v.schedule.Keeps config registry

namespace Punctual

variable {config : DispatchConfig} {passed : Time → Prop} {now : Time}
  {a b vehicles : List (Vehicle R)} {v v' : Vehicle R} {registry registry' : Registry}

/-- One vehicle is replaced by another one that keeps the appointments. -/
theorem replace (h : Punctual config passed now (a ++ v :: b) registry)
    (hkeeps : v'.schedule.Keeps config registry) :
    Punctual config passed now (a ++ v' :: b) registry :=
  ⟨h.entries, forall_mem_replace h.schedules hkeeps⟩

/-- The registry gets a new entry, which is on time and appointed to the same times. -/
theorem becomes {entry' : RequestEntry} (h : Punctual config passed now vehicles registry)
    (hbecomes : registry.Becomes registry' entry') (hentry : entry'.OnTime config passed now)
    (hsame : ∀ entry, registry.find? entry'.id = some entry → ∀ e t,
      entry.planned? e = some t → entry'.planned? e = some t) :
    Punctual config passed now vehicles registry' := by
  refine ⟨fun id entry hfind => ?_, fun v hv => (h.schedules v hv).becomes hbecomes hsame⟩
  rw [hbecomes.find] at hfind
  split at hfind
  · cases hfind
    exact hentry
  · exact h.entries id entry hfind

/-- What the registry notes of a vehicle that keeps its appointments is on time. -/
theorem notes (h : Punctual config passed now (a ++ v :: b) registry)
    (hnotes : registry.Notes v registry') : Punctual config passed now (a ++ v :: b) registry' := by
  cases hnotes with
  | nothing => exact h
  | @visit e request entry task _ stop kind found planned becomes =>
    obtain ⟨entry', hfind, hstart, hfinish⟩ := h.schedules v (by simp) task stop e request kind
    cases found.symm.trans hfind
    rw [hfinish] at becomes
    refine h.becomes becomes ((h.entries _ _ found).visited planned hstart) ?_
    intro other hother e' t ht
    have hid : (entry.visited (task.start.offset (config.secs e)) e).id = request := by
      rw [← Registry.find?_id found]
      cases e <;> rfl
    rw [hid, found] at hother
    cases hother
    rw [← ht]
    cases e <;> cases e' <;> rfl

/-- A beat, with what the registry notes of it, keeps the appointments. -/
theorem beat [Scalar R] {pool pool' : ChargerPool R} {event : TaskEvent R}
    (h : Punctual config passed now (a ++ v :: b) registry)
    (hbeat : Beat now v pool event v' pool') (hnotes : registry.Notes v registry') :
    Punctual config passed now (a ++ v' :: b) registry' :=
  (h.notes hnotes).replace (((h.notes hnotes).schedules v (by simp)).visitsOf hbeat.visitsOf)

/-- A request that is due is registered. -/
theorem submit {request : Request} (h : Punctual config passed now vehicles registry)
    (hsound : registry.Sound) (hsubmit : registry.submit request = .ok registry')
    (hdue : request.submitted ≤ now) : Punctual config passed now vehicles registry' := by
  obtain ⟨hnew, hbecomes⟩ := hsound.submit_ok hsubmit
  have hwindow : ∀ window ∈ request.window, window.earliest ≤ window.latest := by
    intro window hsome
    unfold Registry.submit at hsubmit
    rw [Option.mem_def.mp hsome] at hsubmit
    split at hsubmit
    · cases hsubmit
    · dsimp only at hsubmit
      split at hsubmit
      · cases hsubmit
      · exact Nat.le_of_not_lt ‹_›
  refine h.becomes hbecomes ⟨hdue, hwindow, fun _ => ⟨rfl, rfl, rfl, fun e => ?_⟩, by simp⟩ ?_
  · cases e <;> rfl
  · intro entry hfind
    have hnone : registry.find? ({ request := request } : RequestEntry).id = none := hnew
    rw [hnone] at hfind
    cases hfind

/-- A request is cancelled. -/
theorem cancel {id : RequestId} {entry : RequestEntry} {reason : CancelReason}
    (h : Punctual config passed now vehicles registry) (hfind : registry.find? id = some entry)
    (hbecomes : registry.Becomes registry'
      { entry with status := .cancelled reason, cancelledAt := some now })
    (hreason : entry.status = .unplanned ∨
      entry.status = .planned ∧ ∃ why, reason = .withdrawn why) :
    Punctual config passed now vehicles registry' := by
  refine h.becomes hbecomes ((h.entries id entry hfind).cancelled hreason) ?_
  intro other hother e t ht
  have hsame : registry.find? entry.id = some other := hother
  rw [Registry.find?_id hfind, hfind] at hsame
  cases hsame
  rw [← ht]
  cases e <;> rfl

/-- When the schedules have been carried out up to the present, planned trips end later. -/
theorem lt_end {pool : ChargerPool R} {coming : List RequestId} {id : RequestId}
    {entry : RequestEntry} {dropoff : Time} (h : Punctual config passed now vehicles registry)
    (hagree : Agreement coming vehicles pool registry)
    (hsettled : ∀ v ∈ vehicles, v.schedule.Settled now) (hfind : registry.find? id = some entry)
    (hplanned : entry.status = .planned) (hdropoff : entry.plannedDropoff = some dropoff) :
    now < dropoff.offset config.dropoffSecs := by
  obtain ⟨vehicle, hvehicle⟩ := Option.isSome_iff_exists.mp
    ((hagree.sound.isOpen hfind (.inr hplanned)).vehicle hplanned)
  obtain ⟨a, v, b, rfl, rfl, -, hstops⟩ := hagree.exists_vehicle hfind (.inl hplanned) hvehicle
  obtain ⟨hvisits, -⟩ := stops_of_one hagree.roster.numbered (hstops .alighting)
  have hopen : false ∈ v.schedule.visits .alighting id := by
    simp [hvisits, RequestEntry.isDone, hplanned]
  obtain ⟨task, htask, hstatus⟩ := List.mem_map.mp hopen
  obtain ⟨hmem, hserves⟩ := List.mem_filter.mp htask
  obtain ⟨entry', hfind', hstart, hfinish⟩ :=
    h.schedules v (by simp) task hmem .alighting id (TripEnd.serves_iff.mp hserves)
  cases hfind.symm.trans hfind'
  obtain rfl : dropoff = task.start := Option.some.inj (hdropoff.symm.trans hstart)
  have hlater := hsettled v (by simp) task hmem (by simpa using hstatus)
  rwa [hfinish] at hlater

end Punctual

/-! ## Moves -/

namespace Operation

variable [Scalar R] {ctx : DispatchContext R} {planner : ChargingPlanner R} {pool : ChargerPool R}
  {coming : List RequestId} {op op' : Operation R} {passed : Time → Prop}

/-- A move keeps the appointments, and makes one that is still to come. -/
theorem Moves.punctual (hmove : op.Moves ctx planner pool op')
    (hctx : Dispatcher.Ready ctx.config ctx.router) (hagree : op.Agrees coming pool)
    (hpassed : ∀ t, passed t → t ≤ ctx.now)
    (h : Punctual ctx.config passed ctx.now op.fleet.vehicles op.requests) :
    Punctual ctx.config passed ctx.now op'.fleet.vehicles op'.requests := by
  cases hmove with
  | cancel found unplanned _ noted =>
    obtain ⟨requests, hmark, hbecomes, -⟩ := Agreement.cancel hagree found unplanned _ ctx.now
    cases noted.symm.trans hmark
    exact h.cancel found hbecomes (.inl unplanned)
  | @trip id entry a b v v' plan requests found unplanned vehicle evaluated committed noted =>
    have hv := hagree.split vehicle
    have hvalid := hv.roster.valid_at.toValid
    obtain ⟨requests', hmark, hbecomes, -⟩ := (hv.commit_ends hctx found unplanned evaluated).of_ok
      committed
    cases noted.symm.trans hmark
    obtain ⟨_, _, _, _, hwritten, -⟩ :=
      (Vehicle.commit_written hctx hvalid hv.finish_lt evaluated).of_ok committed
    have hentry := h.entries id entry found
    have htimes := (hentry.unplanned unplanned).2.2.2
    rw [vehicle] at h
    have hplanned := h.becomes hbecomes
      (hentry.planned unplanned hctx hpassed hv.finish_lt evaluated) fun other hother e t ht => by
        have hsame : op.requests.find? entry.id = some other := hother
        rw [Registry.find?_id found, found] at hsame
        cases hsame
        simp [htimes e] at ht
    refine hplanned.replace fun task htask e request hkind => ?_
    rcases hwritten.mem_of_visit htask (by simp [hkind, e.request?_kind]) with hold | hnew
    · exact hplanned.schedules v (by simp) task hold e request hkind
    · obtain ⟨rfl, hstart, hfinish⟩ :=
        Vehicle.evaluate_visits evaluated task hnew e request hkind
      refine ⟨_, by rw [hbecomes.find]; exact if_pos rfl, ?_, hfinish⟩
      rw [hstart]
      cases e <;> rfl
  | @session a b v v' bookings session vehicle found inserted =>
    have hv := hagree.split vehicle
    obtain ⟨_, _, _, _, _, hwritten, -⟩ :=
      (ChargingPlanner.session_written hctx.router hv.roster.valid_at.toValid found).of_ok inserted
    rw [vehicle] at h
    refine h.replace ((h.schedules v (by simp)).visitsOf (.of_mem fun task htask => ?_))
    by_cases hrequest : task.kind.request? = none
    · exact .inl hrequest
    · rcases hwritten.mem_of_visit htask hrequest with hold | hnew
      · exact .inr hold
      · exact .inl (ChargingPlanner.session_request? found task hnew)

/-- So does a whole sequence of moves. -/
theorem punctual_of_moves (hmoves : Relation.ReflTransGen (Moves ctx planner pool) op op')
    (hctx : Dispatcher.Ready ctx.config ctx.router) (hagree : op.Agrees coming pool)
    (hpassed : ∀ t, passed t → t ≤ ctx.now)
    (h : Punctual ctx.config passed ctx.now op.fleet.vehicles op.requests) :
    Punctual ctx.config passed ctx.now op'.fleet.vehicles op'.requests :=
  keeps_of_moves (P := fun op => Punctual ctx.config passed ctx.now op.fleet.vehicles op.requests)
    (fun hmove hagree => hmove.punctual hctx hagree hpassed) hmoves hctx hagree h

end Operation

end DemandTransport
