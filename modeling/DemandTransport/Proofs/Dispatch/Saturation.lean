import DemandTransport.Proofs.Dispatch.Commitment

/-!
# Plans near the last instant

All times of a plan are sums that stop at the last instant there is, and the only one that is
compared with the end of the horizon is the end of alighting. Where alighting begins therefore tells
everything about what has been cut off before: with room behind it for alighting nothing has been,
and without any room the last task is empty.
-/

namespace DemandTransport

variable {R : Type}

/-- Noting something about tasks does not change whom they serve. -/
theorem KeepsWork.filter_serves {f : Task R → Task R} (hf : KeepsWork f) (e : TripEnd)
    (request : RequestId) (tasks : List (Task R)) :
    (tasks.map f).filter (e.serves request) = (tasks.filter (e.serves request)).map f := by
  have hserves : e.serves request ∘ f = e.serves request := by
    funext task
    cases e <;>
      simp only [Function.comp_apply, TripEnd.serves, Vehicle.isPickupOf, Vehicle.isDropoffOf,
        hf.kind]
  rw [List.filter_map, hserves]

/-- Tasks that stand or drive serve nobody. -/
theorem TripEnd.filter_serves_eq_nil {tasks : List (Task R)}
    (h : ∀ task ∈ tasks, task.isStay = true ∨ task.kind.isDrive = true) (e : TripEnd)
    (request : RequestId) : tasks.filter (e.serves request) = [] := by
  rw [List.filter_eq_nil_iff]
  intro task htask hserves
  simpa [Task.request?_eq_none (h task htask)] using request?_of_serves hserves

/-- A plan that is what its settings say: the one pickup and the one dropoff take the time that is
set for them, each task takes time, and the last one is over by a limit. -/
structure Insertion.Exact (plan : Insertion R) (config : DispatchConfig) (request : RequestId)
    (limit : Time) : Prop where
  boards : ∃ pickup, plan.tasks.filter (TripEnd.boarding.serves request) = [pickup] ∧
    pickup.finish.secs = pickup.start.secs + config.pickupSecs
  alights : ∃ dropoff, plan.tasks.filter (TripEnd.alighting.serves request) = [dropoff] ∧
    dropoff.finish.secs = dropoff.start.secs + config.dropoffSecs
  lasts : ∀ task ∈ plan.tasks, task.start < task.finish
  within : ∀ task ∈ plan.tasks.getLast?, task.finish ≤ limit

variable [Scalar R]

namespace Insertion.Joins

variable {ctx : DispatchContext R} {v : Vehicle R} {request : Request} {plan : Insertion R}
  {slot : Slot} {approach ride : Route R} {wait : List (Task R)} {f : Task R → Task R}

/-- What serves a request at one end of its trip lies between its drives and the idle time before
boarding. -/
theorem filter_serves (h : plan.Joins ctx v request slot approach ride wait f) (e : TripEnd) :
    plan.tasks.filter (e.serves request.id) =
      ([Task.pickup request.id request.origin plan.pickupAt
          (plan.pickupAt.offset ctx.config.pickupSecs),
        Task.dropoff request.id request.destination ride.arrival
          (ride.arrival.offset ctx.config.dropoffSecs)].filter (e.serves request.id)).map f := by
  have hdrives (route : Route R) : route.drives.filter (e.serves request.id) = [] :=
    TripEnd.filter_serves_eq_nil (fun task htask => .inr (route.drives_isDrive task htask)) _ _
  have hwait : wait.filter (e.serves request.id) = [] :=
    TripEnd.filter_serves_eq_nil
      (fun task htask => .inl ((Request.boarding_ok h.boards).2 task htask)) _ _
  rw [h.tasks, h.keeps.filter_serves, serviceTasks]
  simp only [List.filter_append, hdrives, hwait, List.append_nil, List.nil_append]
  rw [← List.filter_append, List.singleton_append]

theorem filter_boarding (h : plan.Joins ctx v request slot approach ride wait f) :
    plan.tasks.filter (TripEnd.boarding.serves request.id) =
      [f (Task.pickup request.id request.origin plan.pickupAt
        (plan.pickupAt.offset ctx.config.pickupSecs))] := by
  rw [h.filter_serves]
  simp [TripEnd.serves, Vehicle.isPickupOf, Task.pickup, Task.dropoff]

theorem filter_alighting (h : plan.Joins ctx v request slot approach ride wait f) :
    plan.tasks.filter (TripEnd.alighting.serves request.id) =
      [f (Task.dropoff request.id request.destination ride.arrival
        (ride.arrival.offset ctx.config.dropoffSecs))] := by
  rw [h.filter_serves]
  simp [TripEnd.serves, Vehicle.isDropoffOf, Task.pickup, Task.dropoff]

/-- Its last task is the dropoff. -/
theorem getLast? (h : plan.Joins ctx v request slot approach ride wait f) :
    plan.tasks.getLast? = some (f (Task.dropoff request.id request.destination ride.arrival
      (ride.arrival.offset ctx.config.dropoffSecs))) := by
  rw [h.tasks, serviceTasks, List.map_append, List.map_singleton, List.getLast?_concat]

/-- Each task takes time exactly if alighting begins before the last instant there is. -/
theorem lasts_iff (h : plan.Joins ctx v request slot approach ride wait f)
    (hctx : Dispatcher.Ready ctx.config ctx.router) :
    (∀ task ∈ plan.tasks, task.start < task.finish) ↔ plan.dropoffAt < .last := by
  constructor
  · intro hlasts
    have halights := hlasts _ (List.mem_of_getLast? h.getLast?)
    rw [h.keeps.start, h.keeps.finish] at halights
    rw [h.alights]
    exact Nat.lt_of_lt_of_le halights (Time.secs_le _)
  · intro halights task htask
    exact ((h.leads hctx halights).mem task htask).1.lasts

/-- A plan is what its settings say exactly if there is room for alighting where it begins. -/
theorem exact_iff (h : plan.Joins ctx v request slot approach ride wait f)
    (hctx : Dispatcher.Ready ctx.config ctx.router) :
    plan.Exact ctx.config request.id v.schedule.finish ↔
      plan.dropoffAt.secs + ctx.config.dropoffSecs ≤ wordLimit := by
  constructor
  · intro hexact
    obtain ⟨dropoff, hdropoff, htime⟩ := hexact.alights
    cases h.filter_alighting.symm.trans hdropoff
    rw [h.keeps.start, h.keeps.finish] at htime
    rw [h.alights]
    have hword := (ride.arrival.offset ctx.config.dropoffSecs).secs_le
    exact (Nat.le_of_eq htime.symm).trans hword
  · intro hroom
    have halights : plan.dropoffAt < .last := by
      have hsecs := hctx.dropoff
      simp only [Time.lt_iff, Time.last]
      omega
    have hride := (routeLeg?_joins hctx.router h.rides).1.arrival
    rw [h.alights] at hroom
    refine ⟨⟨_, h.filter_boarding, ?_⟩, ⟨_, h.filter_alighting, ?_⟩,
      (h.lasts_iff hctx).mpr halights, ?_⟩
    · rw [h.keeps.start, h.keeps.finish]
      rw [h.alights] at halights
      simp only [Task.pickup, Time.le_iff, Time.lt_iff, Time.secs_offset, Time.last] at *
      omega
    · rw [h.keeps.start, h.keeps.finish]
      simp only [Task.dropoff, Time.secs_offset]
      omega
    · rw [h.getLast?, ← Vehicle.openSlot?_limit h.opens]
      rintro last ⟨⟩
      rw [h.keeps.finish]
      exact h.fits

end Insertion.Joins

/-- One link of a minute between two nodes. -/
def Network.oneLink : Network Rat :=
  ⟨#[⟨0, 0⟩, ⟨0, 0⟩], #[⟨⟨0⟩, ⟨1⟩, 1000, 60000⟩], #[0, 1, 1], by decide, by decide⟩

namespace Vehicle

variable {ctx : DispatchContext R} {v : Vehicle R} {request : Request} {plan : Insertion R}

/-- A plan can be carried out exactly if alighting begins before the last instant there is. -/
theorem exists_commit_iff (hctx : Dispatcher.Ready ctx.config ctx.router)
    (hvalid : v.schedule.Valid) (h : v.evaluate ctx request = .ok plan) :
    (∃ v', commit plan v = .ok () v') ↔ plan.dropoffAt < .last := by
  obtain ⟨slot, approach, ride, wait, f, hplan⟩ := evaluate_ok h
  constructor
  · rintro ⟨v', hcommit⟩
    exact (hplan.lasts_iff hctx).mp (lasts_of_commit hcommit)
  · intro halights
    obtain ⟨_, v', hcommit, -⟩ := (commit_written_of_alights hctx hvalid halights h).exists_ok
    exact ⟨v', hcommit⟩

/-- A plan is what its settings say exactly if it leaves room for alighting before the last instant
there is, and each of its tasks takes time exactly if alighting begins before that instant. Both are
so where the horizon ends before it. -/
theorem evaluate_exact (hrouter : ctx.router.Sound)
    (hconfig : ctx.config.validate = (.ok () : Except (DispatchError R) Unit))
    (h : v.evaluate ctx request = .ok plan) :
    (plan.Exact ctx.config request.id v.schedule.finish ↔
      plan.dropoffAt.secs + ctx.config.dropoffSecs ≤ wordLimit) ∧
    ((∀ task ∈ plan.tasks, task.start < task.finish) ↔ plan.dropoffAt < .last) ∧
    (v.schedule.finish < .last → plan.Exact ctx.config request.id v.schedule.finish) := by
  have hctx := Dispatcher.Ready.of_validate hrouter hconfig
  obtain ⟨slot, approach, ride, wait, f, hplan⟩ := evaluate_ok h
  refine ⟨hplan.exact_iff hctx, hplan.lasts_iff hctx, fun hlast => (hplan.exact_iff hctx).mpr ?_⟩
  have hfits := hplan.fits
  rw [hplan.alights]
  rw [← openSlot?_limit hplan.opens] at hlast
  simp only [Time.le_iff, Time.lt_iff, Time.secs_offset, Time.last] at *
  omega

/-- A request is served early in a horizon that has no end but the last instant there is. Boarding
and alighting take the time that is set for them. -/
theorem evaluate_exact_oneLink :
    let v : Vehicle Rat := ⟨⟨0⟩, ⟨0⟩, .zero, .last, 4, none, ⟨[Task.stay ⟨0⟩ .zero .last]⟩⟩
    let ctx : DispatchContext Rat := ⟨.oneLink, LeastTime.route, {}, .zero⟩
    let request : Request := ⟨⟨0⟩, ⟨0⟩, ⟨0⟩, ⟨1⟩, .zero, some ⟨.ofSecs 100, .ofSecs 200⟩⟩
    ctx.config.validate = (.ok () : Except (DispatchError Rat) Unit) ∧
      ∃ plan, v.evaluate ctx request = .ok plan ∧ plan.dropoffAt = .ofSecs 280 ∧
        plan.Exact ctx.config request.id .last := by
  intro v ctx request
  have hconfig : ctx.config.validate = (.ok () : Except (DispatchError Rat) Unit) := rfl
  have hok : (v.evaluate ctx request).toOption.map Insertion.dropoffAt = some (.ofSecs 280) := by
    decide +kernel
  cases hplan : v.evaluate ctx request with
  | error e => simp [hplan, Except.toOption] at hok
  | ok plan =>
    simp only [hplan, Except.toOption, Option.map_some, Option.some.injEq] at hok
    refine ⟨hconfig, plan, rfl, hok,
      (evaluate_exact LeastTime.route_sound hconfig hplan).1.mpr ?_⟩
    rw [hok]
    decide

/-- A hundred seconds before the last instant the same vehicle is given a plan that takes four
minutes. What lies behind the last instant is cut off: the vehicle drives and its passenger alights
in no time, and such a plan cannot be carried out. -/
theorem evaluate_inexact_oneLink :
    let v : Vehicle Rat := ⟨⟨0⟩, ⟨0⟩, .zero, .last, 4, none, ⟨[Task.stay ⟨0⟩ .zero .last]⟩⟩
    let ctx : DispatchContext Rat := ⟨.oneLink, LeastTime.route, {}, .zero⟩
    let opening : Time := ⟨wordLimit - 100, by decide⟩
    let request : Request := ⟨⟨0⟩, ⟨0⟩, ⟨0⟩, ⟨1⟩, .zero, some ⟨opening, .last⟩⟩
    v.schedule.validate = .ok () ∧
      ctx.config.validate = (.ok () : Except (DispatchError Rat) Unit) ∧ opening ≤ .last ∧
      ∃ plan, v.evaluate ctx request = .ok plan ∧
        plan.tasks.map Task.duration = [wordLimit - 100, 100, 0, 0] ∧
        ¬plan.Exact ctx.config request.id v.schedule.finish ∧ ¬∃ v', commit plan v = .ok () v' := by
  intro v ctx opening request
  have hvalid : v.schedule.validate = .ok () := by decide
  have hconfig : ctx.config.validate = (.ok () : Except (DispatchError Rat) Unit) := rfl
  have hok : (v.evaluate ctx request).toOption.map
      (fun plan => (plan.dropoffAt, plan.tasks.map Task.duration)) =
        some (.last, [wordLimit - 100, 100, 0, 0]) := by
    decide +kernel
  cases hplan : v.evaluate ctx request with
  | error e => simp [hplan, Except.toOption] at hok
  | ok plan =>
    simp only [hplan, Except.toOption, Option.map_some, Option.some.injEq, Prod.mk.injEq] at hok
    obtain ⟨halights, hdurations⟩ := hok
    refine ⟨hvalid, hconfig, by decide, plan, rfl, hdurations, fun hexact => ?_, fun hcommit => ?_⟩
    · have hempty : 0 ∈ plan.tasks.map Task.duration := by simp [hdurations]
      obtain ⟨task, htask, hduration⟩ := List.mem_map.mp hempty
      have hlasts := hexact.lasts task htask
      simp only [Task.duration, Time.since, Time.lt_iff] at hduration hlasts
      omega
    · have hctx := Dispatcher.Ready.of_validate LeastTime.route_sound hconfig
      have hroom :=
        (exists_commit_iff hctx (Schedule.validate_eq_ok_iff.mp hvalid) hplan).mp hcommit
      exact Nat.lt_irrefl _ (halights ▸ hroom)

end Vehicle

end DemandTransport
