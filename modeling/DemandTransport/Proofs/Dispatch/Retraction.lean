import DemandTransport.Proofs.Action
import DemandTransport.Proofs.Schedule.Editing
import DemandTransport.Proofs.Schedule.InPlace
import DemandTransport.Proofs.Schedule.Trips
import Mathlib.Data.List.DropRight

/-!
# Taking a request back

In a paired schedule the trip of a request is its pickup, one drive at most and its dropoff. Taking
a planned trip back removes exactly these two visits, whether the end of the schedule becomes idle
time or only the two tasks do, and the schedule stays paired.
-/

namespace DemandTransport

variable {R : Type}

/-- The errand of a request in a schedule, with the only visits of the request. -/
structure Errand (v : Vehicle R) (request : RequestId) (before ride after : List (Task R))
    (pickup dropoff : Task R) : Prop where
  tasks : v.schedule.tasks = before ++ pickup :: (ride ++ dropoff :: after)
  /-- The errand begins with the pickup. -/
  boards : pickup.kind = .pickup request
  /-- One drive at most follows. -/
  rides : ride = [] ∨ ∃ drive : Task R, ride = [drive] ∧ drive.kind.isDrive = true
  /-- The errand ends with the dropoff. -/
  alights : dropoff.kind = .dropoff request
  /-- No other task serves the request. -/
  once : ∀ e, Schedule.visits ⟨before⟩ e request = [] ∧ Schedule.visits ⟨after⟩ e request = []

/-- The trip of a request in a paired schedule. -/
structure Trip (v : Vehicle R) (request : RequestId) (before ride after : List (Task R))
    (pickup dropoff : Task R) : Prop extends Errand v request before ride after pickup dropoff where
  /-- The vehicle is free before the trip. -/
  freeBefore : Ride.free.after? before = some .free
  /-- It goes on from being free behind the trip. -/
  freeAfter : Ride.free.after? after = some .free

/-- A task that has to stay where it is when a request is taken back: it has been begun, it charges
the vehicle, or it serves another request. -/
def Task.IsBound (request : RequestId) (task : Task R) : Prop :=
  task.status ≠ .planned ∨ (∃ charger, task.kind = .charge charger) ∨
    ∃ other, other ≠ request ∧ task.kind.request? = some other

/-- Planned idle time and drives may go, and so may the planned visits of the request. -/
theorem Task.not_isBound {request : RequestId} {task : Task R} (hplanned : task.status = .planned)
    (hkind : task.isStay = true ∨ task.kind.isDrive = true ∨ task.kind.request? = some request) :
    ¬task.IsBound request := by
  rintro (hbegun | ⟨charger, hcharge⟩ | ⟨other, hother, hserves⟩)
  · exact hbegun hplanned
  · simp [isStay, hcharge, TaskKind.isStay, TaskKind.isDrive, TaskKind.request?] at hkind
  · rcases hkind with hidle | hdrive | hrequest
    · simp [Task.request?_eq_none (.inl hidle)] at hserves
    · simp [Task.request?_eq_none (.inr hdrive)] at hserves
    · exact hother (Option.some.inj (hserves.symm.trans hrequest))

/-- The tasks of another schedule that have to stay where they are are in this one. -/
def Schedule.Spares (request : RequestId) (s s' : Schedule R) : Prop :=
  ∀ (i : Nat) (task : Task R), s.tasks[i]? = some task → task.IsBound request →
    s'.tasks[i]? = some task

namespace Errand

variable {v : Vehicle R} {request : RequestId} {before ride after : List (Task R)}
  {pickup dropoff : Task R}

theorem ride_isDrive (h : Errand v request before ride after pickup dropoff) :
    ∀ task ∈ ride, task.kind.isDrive = true := by
  rcases h.rides with rfl | ⟨drive, rfl, hdrive⟩
  · simp
  · simpa using hdrive

theorem ride_request? (h : Errand v request before ride after pickup dropoff) :
    ∀ task ∈ ride, task.kind.request? = none :=
  fun task htask => Task.request?_eq_none (.inr (h.ride_isDrive task htask))

/-- The visits of another request lie outside of the trip. -/
theorem visits_of_ne (h : Errand v request before ride after pickup dropoff) {e : TripEnd}
    {other : RequestId} (hne : other ≠ request) :
    v.schedule.visits e other =
      Schedule.visits ⟨before⟩ e other ++ Schedule.visits ⟨after⟩ e other := by
  have hpickup : Schedule.visits ⟨[pickup]⟩ e other = [] :=
    Schedule.visits_eq_nil (by simp [h.boards, TaskKind.request?, hne.symm])
  have hride : Schedule.visits ⟨ride⟩ e other = [] :=
    Schedule.visits_eq_nil fun task htask => by simp [h.ride_request? task htask]
  have hdropoff : Schedule.visits ⟨[dropoff]⟩ e other = [] :=
    Schedule.visits_eq_nil (by simp [h.alights, TaskKind.request?, hne.symm])
  change Schedule.visits ⟨v.schedule.tasks⟩ e other = _
  rw [h.tasks, Schedule.visits_append, Schedule.visits_cons, Schedule.visits_append,
    Schedule.visits_cons dropoff, hpickup, hride, hdropoff]
  rfl

/-- The first dropoff of the request is the one of the trip. -/
theorem findIdx?_dropoff (h : Errand v request before ride after pickup dropoff) :
    v.schedule.tasks.findIdx? (Vehicle.isDropoffOf request) =
      some (before.length + 1 + ride.length) := by
  have hfront : ∀ task ∈ before ++ pickup :: ride,
      TripEnd.alighting.serves request task = false := by
    intro task htask
    rcases List.mem_append.mp htask with htask | htask
    · exact Schedule.visits_eq_nil_iff.mp (h.once .alighting).1 task htask
    · refine Bool.eq_false_iff.mpr fun hserves => ?_
      have hkind := TripEnd.serves_alighting.mp hserves
      rcases List.mem_cons.mp htask with rfl | hride
      · simp [h.boards] at hkind
      · simpa [hkind, TaskKind.request?] using h.ride_request? task hride
  have hnone : (before ++ pickup :: ride).findIdx? (Vehicle.isDropoffOf request) = none :=
    List.findIdx?_eq_none_iff.mpr hfront
  have hserves : Vehicle.isDropoffOf request dropoff = true :=
    TripEnd.serves_alighting.mpr h.alights
  rw [h.tasks, ← List.cons_append, ← List.append_assoc, List.findIdx?_append, hnone,
    List.findIdx?_cons, if_pos hserves]
  simp only [Option.map_some, Option.none_or, List.length_append, List.length_cons]
  congr 1
  omega

/-- So is the first pickup. -/
theorem findIdx?_pickup (h : Errand v request before ride after pickup dropoff) :
    v.schedule.tasks.findIdx? (Vehicle.isPickupOf request) = some before.length := by
  have hnone : before.findIdx? (Vehicle.isPickupOf request) = none :=
    List.findIdx?_eq_none_iff.mpr (Schedule.visits_eq_nil_iff.mp (h.once .boarding).1)
  have hserves : Vehicle.isPickupOf request pickup = true := TripEnd.serves_boarding.mpr h.boards
  rw [h.tasks, List.findIdx?_append, hnone, List.findIdx?_cons, if_pos hserves]
  simp

/-- The trip can be taken back as long as its pickup is planned. -/
theorem tripOf_eq (h : Errand v request before ride after pickup dropoff) :
    v.tripOf request =
      if pickup.status = .planned then .ok (before.length, before.length + 1 + ride.length)
      else .error (.pickupBegun pickup.status) := by
  have hget : v.schedule.tasks[before.length]? = some pickup := by simp [h.tasks]
  simp only [Vehicle.tripOf, h.findIdx?_pickup, h.findIdx?_dropoff, hget]

/-- No other task lets the passenger board. -/
theorem eq_pickup (h : Errand v request before ride after pickup dropoff) {task : Task R}
    (htask : task ∈ v.schedule.tasks) (hkind : task.kind = .pickup request) : task = pickup := by
  have hserves : TripEnd.boarding.serves request task = true := TripEnd.serves_boarding.mpr hkind
  rw [h.tasks] at htask
  simp only [List.mem_append, List.mem_cons] at htask
  rcases htask with hbefore | heq | hride | rfl | hafter
  · simp [Schedule.visits_eq_nil_iff.mp (h.once .boarding).1 task hbefore] at hserves
  · exact heq
  · simpa [hkind, TaskKind.request?] using h.ride_request? task hride
  · simp [h.alights] at hkind
  · simp [Schedule.visits_eq_nil_iff.mp (h.once .boarding).2 task hafter] at hserves

/-- The visit at each end is that of the trip. -/
theorem visits_eq (h : Errand v request before ride after pickup dropoff) :
    v.schedule.visits .boarding request = [decide (pickup.status = .performed)] ∧
      v.schedule.visits .alighting request = [decide (dropoff.status = .performed)] := by
  have hride (e : TripEnd) : Schedule.visits ⟨ride⟩ e request = [] :=
    Schedule.visits_eq_nil fun task htask => by simp [h.ride_request? task htask]
  have hsplit (e : TripEnd) : v.schedule.visits e request =
      Schedule.visits ⟨[pickup]⟩ e request ++ Schedule.visits ⟨[dropoff]⟩ e request := by
    change Schedule.visits ⟨v.schedule.tasks⟩ e request = _
    rw [h.tasks, Schedule.visits_append, Schedule.visits_cons, Schedule.visits_append,
      Schedule.visits_cons dropoff, hride, (h.once e).1, (h.once e).2]
    simp
  have hpickup : Schedule.visits ⟨[pickup]⟩ .alighting request = [] :=
    Schedule.visits_eq_nil_iff.mpr (by simp [TripEnd.serves, Vehicle.isDropoffOf, h.boards])
  have hdropoff : Schedule.visits ⟨[dropoff]⟩ .boarding request = [] :=
    Schedule.visits_eq_nil_iff.mpr (by simp [TripEnd.serves, Vehicle.isPickupOf, h.alights])
  rw [hsplit, hsplit, hpickup, hdropoff, List.append_nil, List.nil_append,
    Schedule.visits_of_serves (TripEnd.serves_boarding.mpr h.boards),
    Schedule.visits_of_serves (TripEnd.serves_alighting.mpr h.alights)]
  exact ⟨rfl, rfl⟩

end Errand

namespace Vehicle

/-- Tasks that only bring the vehicle to its next work serve no request and are planned. -/
theorem isApproach_iff {task : Task R} :
    isApproach task = true ↔
      (task.isStay = true ∨ task.kind.isDrive = true) ∧ task.status = .planned := by
  simp [isApproach]

theorem request?_of_isApproach {task : Task R} (h : isApproach task = true) :
    task.kind.request? = none := by
  exact Task.request?_eq_none (isApproach_iff.mp h).1

/-- The approach to the work behind some tasks is the longest end of them that only brings the
vehicle there. -/
theorem approachStart_eq (before rest : List (Task R)) :
    approachStart (before ++ rest) before.length = (before.rdropWhile isApproach).length := by
  induction before using List.reverseRecOn generalizing rest with
  | nil => rfl
  | append_singleton before task ih =>
    have hget : (before ++ [task] ++ rest)[before.length]? = some task := by simp
    rw [List.length_append, List.length_singleton, approachStart, hget]
    by_cases happroach : isApproach task = true
    · rw [List.rdropWhile_concat_pos _ _ _ happroach]
      simpa [happroach] using ih (task :: rest)
    · rw [List.rdropWhile_concat_neg _ _ _ happroach]
      simp [happroach]

/-- What lies before an approach is none itself. -/
theorem isApproach_getLast? {before : List (Task R)} :
    ∀ last ∈ (before.rdropWhile isApproach).getLast?, isApproach last = false := by
  intro last hlast
  have hne : before.rdropWhile isApproach ≠ [] := by
    rintro hnil
    simp [hnil] at hlast
  have hnot := List.rdropWhile_last_not isApproach before hne
  rw [List.getLast?_eq_some_getLast hne, Option.mem_some_iff] at hlast
  rwa [hlast, Bool.not_eq_true] at hnot

end Vehicle

namespace Errand

variable {v : Vehicle R} {request : RequestId} {before ride after : List (Task R)}
  {pickup dropoff : Task R}

theorem planned (h : Errand v request before ride after pickup dropoff)
    (hvalid : v.schedule.Valid) (hwaits : pickup.status = .planned) :
    ∀ task ∈ pickup :: (ride ++ dropoff :: after), task.status = .planned := by
  have hvalid' : Schedule.Valid ⟨before ++ pickup :: (ride ++ dropoff :: after)⟩ := by
    rwa [← h.tasks]
  intro task htask
  rcases List.mem_cons.mp htask with rfl | hbehind
  · exact hwaits
  · exact hvalid'.planned_after (by simp [hwaits]) task hbehind

/-- When only idle time follows, everything from the approach to the pickup on can be given back,
and nothing but the errand is lost. -/
theorem exists_front (h : Errand v request before ride after pickup dropoff)
    (hvalid : v.schedule.Valid) (hwaits : pickup.status = .planned)
    (hidle : ∀ task ∈ after, task.isStay = true) :
    ∃ first rest, v.schedule.tasks = before.rdropWhile Vehicle.isApproach ++ first :: rest ∧
      (∀ task ∈ first :: rest, task.status = .planned) ∧
      (∀ task ∈ first :: rest, ¬task.IsBound request) ∧
      ∀ e other, Schedule.visits ⟨before.rdropWhile Vehicle.isApproach⟩ e other =
        if other = request then [] else v.schedule.visits e other := by
  have hsplit : before.rdropWhile Vehicle.isApproach ++ before.rtakeWhile Vehicle.isApproach =
      before := List.rdropWhile_append_rtakeWhile
  have happroach : ∀ task ∈ before.rtakeWhile Vehicle.isApproach, Vehicle.isApproach task = true :=
    fun task htask => List.mem_rtakeWhile_imp htask
  generalize before.rdropWhile Vehicle.isApproach = a at hsplit ⊢
  generalize before.rtakeWhile Vehicle.isApproach = b at hsplit happroach
  subst hsplit
  have hb : ∀ task ∈ b, task.kind.request? = none := fun task htask =>
    Vehicle.request?_of_isApproach (happroach task htask)
  obtain ⟨first, rest, hrest⟩ : ∃ first rest,
      b ++ pickup :: (ride ++ dropoff :: after) = first :: rest :=
    List.exists_cons_of_ne_nil (by simp)
  have htasks : v.schedule.tasks = a ++ first :: rest := by
    rw [h.tasks, List.append_assoc, hrest]
  have hplanned : ∀ task ∈ first :: rest, task.status = .planned := by
    intro task htask
    rw [← hrest] at htask
    rcases List.mem_append.mp htask with hbefore | hbehind
    · exact (Vehicle.isApproach_iff.mp (happroach task hbefore)).2
    · exact h.planned hvalid hwaits task hbehind
  refine ⟨first, rest, htasks, hplanned, ?_, ?_⟩
  · intro task htask
    refine Task.not_isBound (hplanned task htask) ?_
    rw [← hrest] at htask
    simp only [List.mem_append, List.mem_cons] at htask
    rcases htask with hbefore | rfl | hride | rfl | hbehind
    · exact (Vehicle.isApproach_iff.mp (happroach task hbefore)).1.imp_right .inl
    · exact .inr (.inr (by simp [h.boards, TaskKind.request?]))
    · exact .inr (.inl (h.ride_isDrive task hride))
    · exact .inr (.inr (by simp [h.alights, TaskKind.request?]))
    · exact .inl (hidle task hbehind)
  · intro e other
    have hbNone : Schedule.visits ⟨b⟩ e other = [] :=
      Schedule.visits_eq_nil fun task htask => by simp [hb task htask]
    by_cases hother : other = request
    · subst hother
      have hnone := (h.once e).1
      rw [Schedule.visits_append] at hnone
      rw [if_pos rfl]
      exact (List.append_eq_nil_iff.mp hnone).1
    · rw [if_neg hother, h.visits_of_ne hother, Schedule.visits_append, hbNone,
        Schedule.visits_idle hidle]
      simp

/-- What follows the errand is found behind its dropoff. -/
theorem drop_eq (h : Errand v request before ride after pickup dropoff) :
    v.schedule.tasks.drop (before.length + 1 + ride.length + 1) = after := by
  have hsplit : v.schedule.tasks = (before ++ pickup :: (ride ++ [dropoff])) ++ after := by
    simp [h.tasks]
  rw [hsplit, List.drop_left']
  simp
  omega

/-- The pickup of a planned errand can become idle time. -/
theorem vacate_pickup (h : Errand v request before ride after pickup dropoff)
    (hwaits : pickup.status = .planned) :
    v.schedule.vacate before.length = .ok
      ⟨before ++ { pickup with kind := .stay none } :: (ride ++ dropoff :: after)⟩ := by
  rw [Schedule.eq_of_tasks h.tasks]
  exact Schedule.vacate_append hwaits (by simp [h.boards, TaskKind.isDrive])

/-- So can its dropoff, whatever the pickup has become. -/
theorem vacate_dropoff (h : Errand v request before ride after pickup dropoff)
    (hvalid : v.schedule.Valid) (hwaits : pickup.status = .planned) (pickup' : Task R) :
    Schedule.vacate ⟨before ++ pickup' :: (ride ++ dropoff :: after)⟩
        (before.length + 1 + ride.length) =
      .ok ⟨before ++ pickup' :: (ride ++ { dropoff with kind := .stay none } :: after)⟩ := by
  have hvacate := @Schedule.vacate_append R (before ++ pickup' :: ride) after dropoff
    (h.planned hvalid hwaits dropoff (by simp)) (by simp [h.alights, TaskKind.isDrive])
  have hlength : (before ++ pickup' :: ride).length = before.length + 1 + ride.length := by
    simp
    omega
  rw [hlength] at hvacate
  simpa using hvacate

/-- Nothing else moves when both do. -/
theorem vacated_spares (h : Errand v request before ride after pickup dropoff)
    (hvalid : v.schedule.Valid) (hwaits : pickup.status = .planned) (pickup' dropoff' : Task R) :
    v.schedule.Spares request ⟨before ++ pickup' :: (ride ++ dropoff' :: after)⟩ := by
  have hloose {task : Task R} (htask : task ∈ pickup :: (ride ++ dropoff :: after))
      (hserves : task.kind.request? = some request) : ¬task.IsBound request :=
    Task.not_isBound (h.planned hvalid hwaits task htask) (.inr (.inr hserves))
  have hpickup := hloose (by simp) (show pickup.kind.request? = some request by
    simp [h.boards, TaskKind.request?])
  have hdropoff := hloose (by simp) (show dropoff.kind.request? = some request by
    simp [h.alights, TaskKind.request?])
  intro i task hget hbound
  rw [h.tasks] at hget
  have hboarding : i ≠ before.length := by
    rintro rfl
    obtain rfl : pickup = task := by simpa using hget
    exact hpickup hbound
  have hmid : (before ++ pickup' :: (ride ++ dropoff :: after))[i]? = some task :=
    Schedule.getElem?_replaceOne hget hboarding
  have halighting : i ≠ (before ++ pickup' :: ride).length := by
    rintro rfl
    obtain rfl : dropoff = task := by
      have hassoc : before ++ pickup' :: (ride ++ dropoff :: after) =
          (before ++ pickup' :: ride) ++ dropoff :: after := by simp
      rw [hassoc] at hmid
      simpa using hmid
    exact hdropoff hbound
  have hlast : ((before ++ pickup' :: ride) ++ dropoff' :: after)[i]? = some task :=
    Schedule.getElem?_replaceOne (by simpa using hmid) halighting
  simpa using hlast

end Errand

namespace Trip

variable {v : Vehicle R} {request : RequestId} {before ride after : List (Task R)}
  {pickup dropoff : Task R}

/-- Around a pickup of a request that is visited once lies its trip. -/
theorem of_pickup {rest : List (Task R)} (hpaired : v.schedule.Paired)
    (honce : ∀ e, (v.schedule.visits e request).length ≤ 1)
    (htasks : v.schedule.tasks = before ++ pickup :: rest)
    (hboards : pickup.kind = .pickup request) :
    ∃ ride dropoff after, rest = ride ++ dropoff :: after ∧
      Trip v request before ride after pickup dropoff := by
  have hpaired' : Schedule.Paired ⟨before ++ pickup :: rest⟩ := by rwa [← htasks]
  obtain ⟨hbefore, ride, dropoff, after, rfl, hrides, halights, hafter⟩ := hpaired'.trip hboards
  have hnone : ∀ e, Schedule.visits ⟨before⟩ e request = [] ∧
      Schedule.visits ⟨after⟩ e request = [] := by
    intro e
    have hlength := honce e
    change (Schedule.visits ⟨v.schedule.tasks⟩ e request).length ≤ 1 at hlength
    rw [htasks, Schedule.visits_append, Schedule.visits_cons, Schedule.visits_append,
      Schedule.visits_cons dropoff] at hlength
    simp only [List.length_append] at hlength
    have hone : 1 ≤ (Schedule.visits ⟨[pickup]⟩ e request).length +
        (Schedule.visits ⟨[dropoff]⟩ e request).length := by
      cases e
      · rw [Schedule.visits_of_serves (TripEnd.serves_boarding.mpr hboards)]
        exact Nat.le_add_right 1 _
      · rw [Schedule.visits_of_serves (TripEnd.serves_alighting.mpr halights)]
        exact Nat.le_add_left 1 _
    exact ⟨List.length_eq_zero_iff.mp (by omega), List.length_eq_zero_iff.mp (by omega)⟩
  exact ⟨ride, dropoff, after, rfl, ⟨htasks, hboards, hrides, halights, hnone⟩, hbefore, hafter⟩

/-- The vehicle is free already where the approach to the pickup begins. -/
theorem free_front (h : Trip v request before ride after pickup dropoff) :
    Ride.free.after? (before.rdropWhile Vehicle.isApproach) = some .free := by
  have hb : ∀ task ∈ before.rtakeWhile Vehicle.isApproach, task.kind.request? = none :=
    fun task htask => Vehicle.request?_of_isApproach (List.mem_rtakeWhile_imp htask)
  have hfree := h.freeBefore
  rw [← List.rdropWhile_append_rtakeWhile (p := Vehicle.isApproach) (l := before),
    Ride.after?_append] at hfree
  cases hafter : Ride.free.after? (before.rdropWhile Vehicle.isApproach) with
  | none => simp [hafter] at hfree
  | some left =>
    rw [hafter, Option.bind_some] at hfree
    have hleft : left = .free := by
      refine Ride.free_of_pickup (b := []) h.boards hb ?_
      rw [Ride.after?_append, hfree, Option.bind_some]
      simp [Ride.after?, Ride.next?, h.boards]
    rw [hleft]

/-- When work follows, pickup and dropoff can become idle time, and nothing but the trip is lost. -/
theorem vacated (h : Trip v request before ride after pickup dropoff) {pickup' dropoff' : Task R}
    (hpickup : pickup'.isStay = true) (hdropoff : dropoff'.isStay = true) :
    Schedule.Paired ⟨before ++ pickup' :: (ride ++ dropoff' :: after)⟩ ∧
      ∀ e other, Schedule.visits ⟨before ++ pickup' :: (ride ++ dropoff' :: after)⟩ e other =
        if other = request then [] else v.schedule.visits e other := by
  have hmid : ∀ task ∈ pickup' :: (ride ++ [dropoff']), task.kind.request? = none := by
    intro task htask
    simp only [List.mem_cons, List.mem_append, List.not_mem_nil, or_false] at htask
    rcases htask with rfl | hride | rfl
    · exact Task.request?_eq_none (.inl hpickup)
    · exact h.ride_request? task hride
    · exact Task.request?_eq_none (.inl hdropoff)
  have hsplit : before ++ pickup' :: (ride ++ dropoff' :: after) =
      before ++ (pickup' :: (ride ++ [dropoff']) ++ after) := by simp
  constructor
  · unfold Schedule.Paired
    rw [hsplit, Ride.after?_append, h.freeBefore, Option.bind_some, Ride.after?_append,
      Ride.after?_free hmid, Option.bind_some, h.freeAfter]
  · intro e other
    have hnone : Schedule.visits ⟨pickup' :: (ride ++ [dropoff'])⟩ e other = [] :=
      Schedule.visits_eq_nil fun task htask => by simp [hmid task htask]
    rw [hsplit, Schedule.visits_append, Schedule.visits_append, hnone, List.nil_append]
    by_cases hother : other = request
    · subst hother
      rw [if_pos rfl, (h.once e).1, (h.once e).2]
      rfl
    · rw [if_neg hother, h.visits_of_ne hother]

end Trip

namespace Vehicle

variable [Scalar R]

/-- What taking a request back does to a vehicle. -/
inductive Retracted (v v' : Vehicle R) : Prop where
  /-- The planned tasks at the end become idle time, which is priced anew. -/
  | reclaimed {before rest : List (Task R)} {first : Task R}
    (tasks : v.schedule.tasks = before ++ first :: rest)
    (planned : ∀ task ∈ first :: rest, task.status = .planned)
    (same : v' = { v with schedule := ⟨before ++ [Schedule.reclaimed before first v.schedule.finish
      (v.profile?.map fun profile =>
        profile.idleEnergy (v.schedule.finish.since first.start))]⟩ }) : Retracted v v'
  /-- Two tasks become idle time where they are. -/
  | vacated {pickup dropoff : Nat} {mid last : Schedule R}
    (boarding : v.schedule.vacate pickup = .ok mid) (alighting : mid.vacate dropoff = .ok last)
    (same : v' = { v with schedule := last }) : Retracted v v'

theorem retract_ok {v v' : Vehicle R} {request : RequestId}
    (h : retract request v = .ok () v') : v.Retracted v' := by
  suffices hends : (retract request).Ends v (fun _ v' => v.Retracted v') fun _ _ => True from
    hends.of_ok h
  simp only [retract, Action.ends_bind, Action.ends_get]
  cases v.tripOf request with
  | error fault => trivial
  | ok trip =>
    simp only [removeTrip, onSchedule, Action.ends_mapError, Action.ends_bind, Action.ends_get]
    split
    · simp only [Schedule.InPlace.retractFrom_eq, Action.ends_within, Action.ends_change]
      split
      next s hretract =>
        obtain ⟨before, first, rest, htasks, hlength, hplanned, rfl⟩ :=
          Schedule.retractFrom_ok hretract
        refine .reclaimed htasks hplanned ?_
        have hfirst : v.schedule.tasks[approachStart v.schedule.tasks trip.1]? = some first := by
          rw [← hlength, htasks]
          simp
        rw [hfirst]
        rfl
      · trivial
    · simp only [Schedule.InPlace.vacate_eq, Action.ends_bind, Action.ends_within,
        Action.ends_change]
      split
      · split
        · exact .vacated ‹_› ‹_› rfl
        · trivial
      · trivial

/-- A planned trip behind which only idle time comes is taken back with everything from the approach
to its pickup on. -/
theorem retract_reclaims {v : Vehicle R} {request : RequestId}
    {before ride after rest : List (Task R)} {pickup dropoff first : Task R}
    (errand : Errand v request before ride after pickup dropoff) (hwaits : pickup.status = .planned)
    (hidle : ∀ task ∈ after, task.isStay = true)
    (htasks : v.schedule.tasks = before.rdropWhile isApproach ++ first :: rest)
    (hplanned : ∀ task ∈ first :: rest, task.status = .planned) :
    (retract request).Ends v
      (fun _ v' => v' = { v with schedule := ⟨before.rdropWhile isApproach ++ [Schedule.reclaimed
        (before.rdropWhile isApproach) first v.schedule.finish (v.profile?.map fun profile =>
          profile.idleEnergy (v.schedule.finish.since first.start))]⟩ })
      fun _ _ => False := by
  have hall : after.all Task.isStay = true := List.all_eq_true.mpr hidle
  have hindex : approachStart v.schedule.tasks before.length =
      (before.rdropWhile isApproach).length := by
    rw [errand.tasks]
    exact approachStart_eq before _
  have hfirst : v.schedule.tasks[(before.rdropWhile isApproach).length]? = some first := by
    rw [htasks]
    simp
  have hretract := fun energy => @Schedule.retractFrom_append R
    (before.rdropWhile isApproach) rest first hplanned energy
  rw [← Schedule.eq_of_tasks htasks] at hretract
  simp only [retract, removeTrip, onSchedule, Action.ends_bind, Action.ends_get, errand.tripOf_eq,
    if_pos hwaits, Action.ends_mapError, errand.drop_eq, hall, if_true, hindex, hfirst]
  rw [Schedule.InPlace.retractFrom_eq, Action.ends_within, Action.ends_change_of_ok (hretract _)]
  rfl

/-- One behind which work comes leaves idle time in the places of its pickup and its dropoff. -/
theorem retract_vacates {v : Vehicle R} {request : RequestId} {before ride after : List (Task R)}
    {pickup dropoff : Task R} (errand : Errand v request before ride after pickup dropoff)
    (hvalid : v.schedule.Valid) (hwaits : pickup.status = .planned)
    (hwork : ¬∀ task ∈ after, task.isStay = true) :
    (retract request).Ends v
      (fun _ v' => v' = { v with schedule := ⟨before ++ { pickup with kind := .stay none } ::
        (ride ++ { dropoff with kind := .stay none } :: after)⟩ })
      fun _ _ => False := by
  have hall : after.all Task.isStay = false :=
    Bool.eq_false_iff.mpr fun hall => hwork (List.all_eq_true.mp hall)
  simp only [retract, removeTrip, onSchedule, Action.ends_bind, Action.ends_get, errand.tripOf_eq,
    if_pos hwaits, Action.ends_mapError, errand.drop_eq, hall, Bool.false_eq_true, if_false]
  rw [Schedule.InPlace.vacate_eq, Schedule.InPlace.vacate_eq, Action.ends_within,
    Action.ends_change_of_ok (errand.vacate_pickup hwaits), Action.ends_within,
    Action.ends_change_of_ok (errand.vacate_dropoff hvalid hwaits _)]

/-- A trip whose pickup has begun cannot be taken back. -/
theorem retract_refused {v : Vehicle R} {request : RequestId} {before ride after : List (Task R)}
    {pickup dropoff : Task R} (errand : Errand v request before ride after pickup dropoff)
    (hbegun : pickup.status ≠ .planned) :
    (retract request).Ends v (fun _ _ => False) fun _ v' => v' = v := by
  simp only [retract, Action.ends_bind, Action.ends_get, errand.tripOf_eq, if_neg hbegun]
  rfl

/-- A trip is taken back exactly as long as its pickup is planned. Its visits go and no others do,
and nothing that is bound moves. -/
theorem retract_ends {v : Vehicle R} {request : RequestId} {before ride after : List (Task R)}
    {pickup dropoff : Task R} (trip : Trip v request before ride after pickup dropoff)
    (hvalid : v.schedule.Valid) :
    (retract request).Ends v
      (fun _ v' => pickup.status = .planned ∧ v'.schedule.Paired ∧
        (∀ e other, v'.schedule.visits e other =
          if other = request then [] else v.schedule.visits e other) ∧
        v.schedule.Spares request v'.schedule)
      fun _ v' => pickup.status ≠ .planned ∧ v' = v := by
  by_cases hwaits : pickup.status = .planned
  · by_cases hidle : ∀ task ∈ after, task.isStay = true
    · obtain ⟨first, rest, htasks, hplanned, hloose, hvisits⟩ :=
        trip.exists_front hvalid hwaits hidle
      refine (retract_reclaims trip.toErrand hwaits hidle htasks hplanned).mono ?_
        fun _ _ h => h.elim
      rintro - v' rfl
      refine ⟨hwaits, ?_, fun e other => ?_, fun i task hget hbound => ?_⟩
      · change Ride.free.after? (_ ++ [_]) = some .free
        rw [Ride.after?_append, trip.free_front, Option.bind_some, Ride.after?_free (by
          simp [Schedule.reclaimed, Task.stay, TaskKind.request?])]
      · have hreclaimed {stay : Task R} (hidle : stay.isStay = true) :
            Schedule.visits ⟨[stay]⟩ e other = [] := Schedule.visits_idle (by simpa using hidle)
        rw [Schedule.visits_append, hreclaimed (by rfl), List.append_nil, hvisits]
      · rw [htasks] at hget
        exact Schedule.getElem?_replace hget fun hgone => hloose task hgone hbound
    · refine (retract_vacates trip.toErrand hvalid hwaits hidle).mono ?_ fun _ _ h => h.elim
      rintro - v' rfl
      obtain ⟨hpaired, hvisits⟩ := @Trip.vacated R v request before ride after pickup dropoff trip
        { pickup with kind := .stay none } { dropoff with kind := .stay none } rfl rfl
      exact ⟨hwaits, hpaired, hvisits, trip.vacated_spares hvalid hwaits _ _⟩
  · exact (retract_refused trip.toErrand hwaits).mono (fun _ _ h => h.elim) fun _ _ h => ⟨hwaits, h⟩

end Vehicle

end DemandTransport
