import DemandTransport.Proofs.Dispatch.Commitment
import DemandTransport.Proofs.Simulation.Calls

/-!
# What is accepted can be written

A plan that an evaluation accepts can be written into the schedule of the vehicle for which it was
made, and what comes out is known task by task: the old tasks before the trailing idle time, the
idle time up to the begin of the plan, the tasks of the plan, and idle time at the destination until
the end of the horizon. The times were worked out on paper, so this says that none of the conditions
under which a schedule refuses a change can arise.
-/

namespace DemandTransport

variable {R : Type} [Scalar R]

/-- A planned stay at a node from one instant to another, docked at no charger. -/
structure Task.IsIdleTime (task : Task R) (node : NodeId) (start finish : Time) : Prop where
  kind : task.kind = .stay none
  status : task.status = .planned
  start : task.start = start
  finish : task.finish = finish
  source : task.source = node
  target : task.target = node

/-- The tasks behind some work that ends at an instant: one planned stay at a node until the end of
the horizon, or none if no time remains. -/
def Schedule.FillsUp (rest : List (Task R)) (node : NodeId) (start finish : Time) : Prop :=
  if start < finish then ∃ left, rest = [left] ∧ left.IsIdleTime node start finish else rest = []

namespace Vehicle

variable {network : Network R} {config : DispatchConfig} {now : Time} {v : Vehicle R}
  {request : Request} {plan : Insertion R}

/-- A plan leaves the vehicle at the destination of its request, docked nowhere. -/
theorem Written.fillsUp {ctx : DispatchContext R} {before : List (Task R)} {stay : Task R}
    {node : NodeId} {t : Time} {v' : Vehicle R}
    (h : Written before stay plan.depart plan.tasks v v')
    (hplan : v.evaluate ctx request = .ok plan)
    (hleads : Leads node plan.depart plan.tasks request.destination t) (ht : t ≤ stay.finish) :
    Schedule.FillsUp (Schedule.leftover (stay.partFrom plan.depart) plan.tasks) request.destination
      (Schedule.finish ⟨plan.tasks⟩) stay.finish := by
  obtain ⟨approach, pickup, ride, dropoff, htasks, -, -, -, halights⟩ := evaluate_trip hplan
  have hlast : plan.tasks = (approach ++ pickup :: ride) ++ [dropoff] := by simp [htasks]
  have hfinish : Schedule.finish ⟨plan.tasks⟩ = t := by
    have hends := hleads.finish_of_getLast? dropoff (by rw [hlast]; exact List.getLast?_concat)
    rw [hlast, Schedule.finish_append_singleton, hends.1]
  rw [hlast] at hleads
  have hlimit : t ≤ (stay.partFrom plan.depart).finish := by simpa
  have hleftover := Schedule.leftover_of_leads hleads hlimit
  rw [← hlast, Task.partFrom_finish] at hleftover
  rw [hfinish]
  unfold Schedule.FillsUp
  split
  next hremains =>
    obtain ⟨left, hleft, hkind, hstatus, hstart, hends, hsource, htarget⟩ :=
      hleftover.2 fun heq => by
        simp only [Time.lt_iff, Time.eq_iff] at *
        omega
    refine ⟨left, hleft, ⟨?_, hstatus.trans h.waiting, hstart, hends, hsource, htarget⟩⟩
    rw [hkind, halights]
    rfl
  next hnone =>
    refine hleftover.1 ?_
    simp only [Time.le_iff, Time.lt_iff, Time.eq_iff] at *
    omega

/-- An accepted plan can be carried out. The schedule stays valid over its horizon. It consists of
the old tasks, the idle time at their end up to the begin of the plan, the tasks of the plan, and
idle time at the destination while time remains. Nothing new begins before the present. -/
theorem commit_writes (hvalid : v.schedule.validate = .ok ()) (hlast : v.schedule.finish < .last)
    (hconfig : config.validate = (.ok () : Except (DispatchError R) Unit))
    (h : v.evaluate ⟨network, LeastTime.route, config, now⟩ request = .ok plan) :
    ∃ v' before stay rest, commit plan v = .ok () v' ∧
      v' = { v with schedule := v'.schedule } ∧ v'.schedule.validate = .ok () ∧
      v'.schedule.start = v.schedule.start ∧ v'.schedule.finish = v.schedule.finish ∧
      v.schedule.tasks = before ++ [stay] ∧ stay.isStay = true ∧
      v'.schedule.tasks = before ++ (if stay.start < plan.depart then
        [stay.headUntil plan.depart] else []) ++ plan.tasks ++ rest ∧
      Schedule.FillsUp rest request.destination (Schedule.finish ⟨plan.tasks⟩)
        v.schedule.finish ∧
      stay.start ≤ plan.depart ∧ now ≤ plan.depart ∧ ∀ task ∈ plan.tasks, now ≤ task.start := by
  obtain ⟨hpickup, hdropoff⟩ := DispatchConfig.validate_ok hconfig
  have hctx : Dispatcher.Ready config (LeastTime.route (R := R)) :=
    ⟨LeastTime.route_sound, hpickup, hdropoff⟩
  have hv := Schedule.validate_eq_ok_iff.mp hvalid
  have hnow : now ≤ plan.depart := by
    obtain ⟨slot, _, _, _, _, hplan⟩ := evaluate_ok h
    obtain ⟨_, _, hlies⟩ := openSlot?_eq_some hplan.opens
    exact hplan.depart ▸ hlies.future
  have hover : v.schedule.ValidOver v.schedule.start v.schedule.finish := ⟨hv, rfl, rfl⟩
  have hreplanned := @insertAt_replanned R {} _ v _ _ plan.depart plan.tasks hover
    fun task htask => (evaluate_stays h task htask).1
  obtain ⟨⟨⟩, v', hrun, ⟨node, before, stay, t, hwritten, -, ht, hleads⟩, hreplanned⟩ :=
    (((commit_written hctx hv hlast h).and hreplanned).mono (fun _ _ hends => hends)
      fun _ _ hends => hends.1).exists_ok
  obtain ⟨hvalid', hstart', hfinish'⟩ := hreplanned.schedule.valid hover
  have hends : v.schedule.finish = stay.finish := by
    rw [Schedule.eq_of_tasks hwritten.old, Schedule.finish_append_singleton]
  refine ⟨v', before, stay, _, hrun, hwritten.same, Schedule.validate_eq_ok_iff.mpr hvalid',
    hstart', hfinish', hwritten.old, hwritten.idle, hwritten.new, ?_, hwritten.begins, hnow, ?_⟩
  · rw [hends]
    exact hwritten.fillsUp h hleads ht
  · exact fun task htask => Nat.le_trans hnow (hleads.le_start task htask)

/-- A vehicle that has just begun to idle accepts a request for later. The idle time is cut a second
after its begin, the vehicle drives, waits and serves the request, and idle time remains. -/
theorem commit_writes_justIdle :
    let profile : EnergyProfile Rat := ⟨10, ⟨"flat", ⟨0, 1⟩, ⟨0, 1⟩, ⟨1, 1⟩, ⟨1, 1⟩⟩, 0.2, 0.5⟩
    let idle : Task Rat := { Task.stay ⟨0⟩ .zero (.ofSecs 9000) with
      status := .started, energy := some (-1.25), startedAt := some .zero }
    let v : Vehicle Rat :=
      ⟨⟨0⟩, ⟨0⟩, .zero, .ofSecs 9000, 1, some ⟨profile, ⟨10, 8⟩⟩, ⟨[idle]⟩⟩
    let request : Request :=
      ⟨⟨0⟩, ⟨0⟩, ⟨1⟩, ⟨0⟩, .zero, some ⟨.ofSecs 500, .ofSecs 900⟩⟩
    ∃ plan v', v.evaluate ⟨.twoStops, LeastTime.route, {}, .zero⟩ request = .ok plan ∧
      plan.depart = .ofSecs 1 ∧ plan.tasks.length = 5 ∧ commit plan v = .ok () v' ∧
      v'.schedule.validate = .ok () ∧ v'.schedule.size = 7 := by
  intro profile idle v request
  have hplan : ((v.evaluate ⟨.twoStops, LeastTime.route, {}, .zero⟩ request).toOption.map
      fun plan => (plan.depart, plan.tasks.length, Schedule.finish ⟨plan.tasks⟩)) =
      some (.ofSecs 1, 5, .ofSecs 740) := by
    decide +kernel
  cases hevaluate : v.evaluate ⟨.twoStops, LeastTime.route, {}, .zero⟩ request with
  | error reason => simp [hevaluate, Except.toOption] at hplan
  | ok plan =>
    simp only [hevaluate, Except.toOption, Option.map_some, Option.some.injEq,
      Prod.mk.injEq] at hplan
    obtain ⟨hdepart, hlength, hfinish⟩ := hplan
    obtain ⟨v', before, stay, rest, hcommit, -, hvalid, -, -, hold, -, hnew, hrest, -⟩ :=
      commit_writes (by decide +kernel) (by decide +kernel) rfl hevaluate
    refine ⟨plan, v', rfl, hdepart, hlength, hcommit, hvalid, ?_⟩
    obtain ⟨rfl, rfl⟩ : before = [] ∧ stay = idle := by
      simpa [v, List.singleton_eq_append_iff] using hold
    rw [hfinish, Schedule.FillsUp, if_pos (by decide +kernel)] at hrest
    obtain ⟨left, rfl, -⟩ := hrest
    rw [Schedule.size, hnew, hdepart, if_pos (by decide +kernel)]
    simp [hlength]

end Vehicle

end DemandTransport
