import DemandTransport.Proofs.Dispatch.Commitment
import DemandTransport.Proofs.Dispatch.Footprint

/-!
# Trips one behind the other

A plan that is carried out without being refused extends the schedule of its vehicle: the tasks
before the trailing idle time stay as they are, and the trip takes the place of idle time. Further
plans made at the same time find the idle time that the trip has left, which is planned and does not
begin before then, so their trips follow directly behind it. This holds for any router and up to the
last instant there is, since only what has been written counts.
-/

namespace DemandTransport

variable {R : Type} [Scalar R]

/-! ## What a plan writes -/

/-- A stop at a node from an instant on. -/
structure Task.IsStop (task : Task R) (kind : TaskKind R) (node : NodeId) (t : Time) : Prop where
  kind : task.kind = kind
  source : task.source = node
  start : task.start = t

/-- Tasks that serve a request: a way to the origin, the pickup, a way to the destination and the
dropoff. -/
def Request.IsServedBy (request : Request) (pickupAt dropoffAt : Time) (tasks : List (Task R)) :
    Prop :=
  ∃ approach pickup ride dropoff, tasks = approach ++ pickup :: (ride ++ [dropoff]) ∧
    (∀ task ∈ approach, task.isStay = true ∨ task.kind.isDrive = true) ∧
    pickup.IsStop (.pickup request.id) request.origin pickupAt ∧
    (∀ task ∈ ride, task.kind.isDrive = true) ∧
    dropoff.IsStop (.dropoff request.id) request.destination dropoffAt

omit [Scalar R] in
/-- Such tasks do not end with idle time. -/
theorem Request.IsServedBy.last {request : Request} {pickupAt dropoffAt : Time}
    {tasks : List (Task R)} (h : request.IsServedBy pickupAt dropoffAt tasks) :
    ∃ body last, tasks = body ++ [last] ∧ last.isStay = false := by
  obtain ⟨approach, pickup, ride, dropoff, rfl, -, -, -, hdropoff⟩ := h
  exact ⟨approach ++ pickup :: ride, dropoff, by simp,
    by simp [Task.isStay, hdropoff.kind, TaskKind.isStay]⟩

namespace Vehicle

variable {ctx : DispatchContext R} {v v' : Vehicle R} {request : Request} {plan : Insertion R}

/-- The tasks of a plan serve its request at the times that it gives. -/
theorem evaluate_serves (h : v.evaluate ctx request = .ok plan) :
    request.IsServedBy plan.pickupAt plan.dropoffAt plan.tasks := by
  obtain ⟨slot, approach, ride, wait, f, hplan⟩ := evaluate_ok h
  have hkeeps := hplan.keeps
  refine ⟨(approach.drives ++ wait).map f, _, ride.drives.map f, _,
    by rw [hplan.tasks, serviceTasks]; simp only [List.map_append, List.append_assoc]; rfl,
    ?_, ⟨hkeeps.kind _, hkeeps.source _, hkeeps.start _⟩, ?_,
    ⟨hkeeps.kind _, hkeeps.source _, (hkeeps.start _).trans hplan.alights.symm⟩⟩
  · intro task htask
    obtain ⟨plain, hplain, rfl⟩ := List.mem_map.mp htask
    rw [Task.isStay, hkeeps.kind]
    rcases List.mem_append.mp hplain with hdrive | hwait
    · exact .inr (Route.drives_isDrive approach plain hdrive)
    · exact .inl ((Request.boarding_ok hplan.boards).2 plain hwait)
  · intro task htask
    obtain ⟨plain, hplain, rfl⟩ := List.mem_map.mp htask
    rw [hkeeps.kind]
    exact Route.drives_isDrive ride plain hplain

omit [Scalar R] in
/-- Work in planned idle time that has yet to come begins with it. -/
theorem openSlot?_depart {now : Time} {slot : Slot} {before : List (Task R)} {stay : Task R}
    (h : v.openSlot? now = some slot) (htasks : v.schedule.tasks = before ++ [stay])
    (hwaiting : stay.status = .planned) (hlater : now ≤ stay.start) : slot.depart = stay.start := by
  have hmax : max stay.start now = stay.start := by
    rw [Time.eq_iff, Time.secs_max]
    exact Nat.max_eq_left hlater
  by_cases hidle : stay.isStay = true
  · simp only [openSlot?, Schedule.trailingStay?, available, htasks, List.getLast?_concat, hidle,
      if_true, hwaiting, hmax, reduceCtorEq, false_and, if_false] at h
    split at h
    · cases h
      rfl
    · cases h
  · simp [openSlot?, Schedule.trailingStay?, htasks, hidle] at h

/-- Vehicles before and after trips have been written one directly behind the other into trailing
idle time at a time. -/
structure Carries (now : Time) (before : List (Task R)) (stay : Task R) (head : List (Task R))
    (trips : List (List (Task R))) (rest : List (Task R)) (v v' : Vehicle R) : Prop where
  /-- The schedule ended with idle time. -/
  old : v.schedule.tasks = before ++ [stay]
  idle : stay.isStay = true
  /-- Only the schedule has changed. -/
  same : v' = { v with schedule := v'.schedule }
  /-- The trips stand behind the tasks that were there. -/
  new : v'.schedule.tasks = before ++ head ++ trips.flatten ++ rest
  /-- What stands between is the idle time up to the first trip. -/
  head_idle : ∀ task ∈ head, task.isStay = true
  /-- There is none if the idle time had yet to come. -/
  head_nil : now ≤ stay.start → stay.status = .planned → head = []
  /-- Behind the trips is idle time that has yet to come. -/
  rest_idle : ∀ left ∈ rest, left.isStay = true ∧ left.status = .planned ∧ now ≤ left.start
  rest_length : rest.length ≤ 1

omit [Scalar R] in
/-- The trips of a vehicle are followed directly by those written later. -/
theorem Carries.cons {now : Time} {before before' head head' rest rest' trip : List (Task R)}
    {stay stay' : Task R} {trips : List (List (Task R))} {v₁ : Vehicle R}
    (h : Carries now before stay head [trip] rest v v₁)
    (htrip : ∃ body last, trip = body ++ [last] ∧ last.isStay = false)
    (h' : Carries now before' stay' head' trips rest' v₁ v') :
    Carries now before stay head (trip :: trips) rest' v v' := by
  have htasks := h.new.symm.trans h'.old
  cases rest with
  | nil =>
    obtain ⟨body, last, rfl, hlast⟩ := htrip
    have hends : before ++ head ++ body ++ [last] = before' ++ [stay'] := by simpa using htasks
    obtain ⟨-, hsame⟩ := List.append_inj' hends rfl
    cases hsame
    simp [h'.idle] at hlast
  | cons left more =>
    obtain rfl : more = [] := by simpa using h.rest_length
    obtain ⟨hbefore, hsame⟩ := List.append_inj' htasks rfl
    obtain rfl : left = stay' := by simpa using hsame
    obtain ⟨-, hwaiting, hlater⟩ := h.rest_idle left List.mem_cons_self
    obtain rfl := h'.head_nil hlater hwaiting
    refine ⟨h.old, h.idle, h'.same.trans (by rw [h.same]), ?_, h.head_idle, h.head_nil,
      h'.rest_idle, h'.rest_length⟩
    rw [h'.new, ← hbefore]
    simp

/-- The schedule stays valid. -/
theorem commit_valid (hvalid : v.schedule.Valid) (hplan : v.evaluate ctx request = .ok plan) :
    (commit plan).Ends v (fun _ v' => v'.schedule.Valid) fun _ _ => True := by
  have hover : v.schedule.ValidOver v.schedule.start v.schedule.finish := ⟨hvalid, rfl, rfl⟩
  have hreplanned := @insertAt_replanned R {} _ v _ _ plan.depart plan.tasks hover
    fun task htask => (evaluate_stays hplan task htask).1
  exact hreplanned.mono (fun _ _ h => (h.schedule.valid hover).toValid) fun _ _ _ => trivial

/-- A plan that is carried out writes its trip into the schedule for which it was made. -/
theorem commit_carries (hvalid : v.schedule.Valid) (hplan : v.evaluate ctx request = .ok plan)
    (hcommit : commit plan v = .ok () v') :
    ∃ before stay head rest, Carries ctx.now before stay head [plan.tasks] rest v v' := by
  obtain ⟨slot, _, _, _, _, hjoins⟩ := evaluate_ok hplan
  obtain ⟨before, stay, hlies⟩ := openSlot?_eq_some hjoins.opens
  have hwaiting := Task.partFrom_status hlies.opened hlies.fresh hlies.begins
  rw [commit, hjoins.depart] at hcommit
  obtain ⟨hinsert, hsame⟩ := insertFrom_of_insertAt hvalid hlies hcommit
  have hs' := (Schedule.insertFrom_writes hwaiting).of_ok hinsert
  refine ⟨before, stay, stay.partBefore slot.depart,
    Schedule.leftover (stay.partFrom slot.depart) plan.tasks, hlies.tasks, hlies.idle, hsame, ?_,
    Task.partBefore_isStay hlies.idle _, fun hlater hplanned => ?_, fun left hleft => ?_,
    Schedule.leftover_length_le _ _⟩
  · simpa using hs'.1
  · have hstart := openSlot?_depart hjoins.opens hlies.tasks hplanned hlater
    simp [Task.partBefore, hstart, Time.lt_iff]
  · obtain ⟨hstatus, hstart⟩ := hs'.2 left hleft
    rw [Task.partFrom_start hlies.begins] at hstart
    exact ⟨Schedule.leftover_isStay (Task.partFrom_isStay hlies.idle _) _ left hleft, hstatus,
      Nat.le_trans hlies.future hstart⟩

end Vehicle

end DemandTransport
