import DemandTransport.Dispatch.Insertion
import DemandTransport.Proofs.Schedule.Validity

/-!
# Trips in schedules

A vehicle carries one passenger at a time: it is free, then a passenger has boarded, it may drive
once, and the passenger alights. A schedule is paired when its tasks read from front to back go
through these phases and leave the vehicle free. The visits of a request are its pickups or its
dropoffs in a schedule, each with whether it is over.
-/

namespace DemandTransport

variable {R : Type}

/-- Whom a vehicle carries. -/
inductive Ride where
  /-- Nobody. -/
  | free
  /-- The passenger of a request, who has just boarded. -/
  | boarded (request : RequestId)
  /-- The passenger of a request, after the drive. -/
  | riding (request : RequestId)
  deriving DecidableEq, Repr

namespace Ride

/-- Whom a vehicle carries after a task, if the task is in order. -/
def next? : Ride → TaskKind R → Option Ride
  | free, .pickup request => some (boarded request)
  | free, .dropoff _ => none
  | free, _ => some free
  | boarded request, .drive _ => some (riding request)
  | boarded request, .dropoff other => if other = request then some free else none
  | riding request, .dropoff other => if other = request then some free else none
  | _, _ => none

/-- Whom a vehicle carries after some tasks, if they are in order. -/
def after? : Ride → List (Task R) → Option Ride
  | ride, [] => some ride
  | ride, task :: rest => (ride.next? task.kind).bind fun ride => ride.after? rest

variable {ride : Ride} {request : RequestId} {tasks a b : List (Task R)}

/-- A free vehicle stays free unless a request is served. -/
theorem next?_free {kind : TaskKind R} (h : kind.request? = none) :
    free.next? kind = some free := by
  cases kind with
  | pickup _ | dropoff _ => cases h
  | stay _ | drive _ | charge _ => rfl

/-- A vehicle does not become free without serving a request. -/
theorem free_of_next? {kind : TaskKind R} (h : kind.request? = none)
    (hnext : ride.next? kind = some free) : ride = free := by
  cases kind with
  | pickup _ | dropoff _ => cases h
  | stay _ | drive _ | charge _ => cases ride <;> first | rfl | cases hnext

/-- With a passenger on board, what comes next, unless it is a drive, is the dropoff. -/
theorem next?_occupied {kind : TaskKind R} {next : Ride}
    (h : ride = boarded request ∨ ride = riding request) (hdrive : kind.isDrive = false)
    (hnext : ride.next? kind = some next) : kind = .dropoff request ∧ next = free := by
  have hdropoff {other : RequestId}
      (h : (if other = request then some free else none) = some next) :
      (.dropoff other : TaskKind R) = .dropoff request ∧ next = free := by
    split at h
    next heq => exact ⟨by rw [heq], (Option.some.inj h).symm⟩
    next => cases h
  rcases h with rfl | rfl
  all_goals
    cases kind with
    | dropoff other => exact hdropoff hnext
    | drive _ => cases hdrive
    | stay _ | pickup _ | charge _ => cases hnext

theorem after?_append (ride : Ride) (a b : List (Task R)) :
    ride.after? (a ++ b) = (ride.after? a).bind fun ride => ride.after? b := by
  induction a generalizing ride with
  | nil => rfl
  | cons task rest ih =>
    simp only [List.cons_append, after?]
    cases ride.next? task.kind with
    | none => rfl
    | some ride => exact ih ride

/-- Tasks that serve no request leave a free vehicle free. -/
theorem after?_free (h : ∀ task ∈ tasks, task.kind.request? = none) :
    free.after? tasks = some free := by
  induction tasks with
  | nil => rfl
  | cons task rest ih =>
    rw [after?, next?_free (h task List.mem_cons_self)]
    exact ih fun other hother => h other (List.mem_cons_of_mem _ hother)

/-- A vehicle that goes on to a pickup, without serving another request before, is free. -/
theorem free_of_pickup {pickup : Task R} (hpickup : pickup.kind = .pickup request)
    (ha : ∀ task ∈ a, task.kind.request? = none)
    (h : (ride.after? (a ++ pickup :: b)).isSome) : ride = free := by
  induction a generalizing ride with
  | nil => cases ride <;> simp_all [after?, next?]
  | cons task rest ih =>
    simp only [List.cons_append, after?] at h
    cases hnext : ride.next? task.kind with
    | none => simp [hnext] at h
    | some later =>
      rw [hnext] at h
      have hlater := ih (fun other hother => ha other (List.mem_cons_of_mem _ hother)) h
      exact free_of_next? (ha task List.mem_cons_self) (hlater ▸ hnext)

/-- Once the passenger of a request has boarded, one drive at most comes before the dropoff. -/
theorem exists_dropoff (h : (boarded request).after? tasks = some free) :
    ∃ ride dropoff after, tasks = ride ++ dropoff :: after ∧
      (ride = [] ∨ ∃ drive : Task R, ride = [drive] ∧ drive.kind.isDrive = true) ∧
      dropoff.kind = .dropoff request ∧ free.after? after = some free := by
  have hdropoff {later : Ride} {task : Task R} {rest : List (Task R)}
      (hlater : later = boarded request ∨ later = riding request)
      (hdrive : task.kind.isDrive = false)
      (h : later.after? (task :: rest) = some free) :
      task.kind = .dropoff request ∧ free.after? rest = some free := by
    rw [after?] at h
    obtain ⟨next, hnext, hrest⟩ := Option.bind_eq_some_iff.mp h
    obtain ⟨hkind, rfl⟩ := next?_occupied hlater hdrive hnext
    exact ⟨hkind, hrest⟩
  cases tasks with
  | nil => simp [after?] at h
  | cons task rest =>
    cases hdrive : task.kind.isDrive with
    | false =>
      obtain ⟨hkind, hrest⟩ := hdropoff (.inl rfl) hdrive h
      exact ⟨[], task, rest, rfl, .inl rfl, hkind, hrest⟩
    | true =>
      have hnext : (boarded request).next? task.kind = some (riding request) := by
        cases hkind : task.kind <;> simp_all [next?, TaskKind.isDrive]
      rw [after?, hnext] at h
      cases rest with
      | nil => simp [after?] at h
      | cons next rest =>
        have hnextDrive : next.kind.isDrive = false := by
          cases hkind : next.kind with
          | drive _ => simp [after?, hkind, next?] at h
          | stay _ | pickup _ | dropoff _ | charge _ => rfl
        obtain ⟨hkind, hrest⟩ := hdropoff (.inr rfl) hnextDrive h
        exact ⟨[task], next, rest, rfl, .inr ⟨task, rfl, hdrive⟩, hkind, hrest⟩

end Ride

namespace Schedule

/-- The tasks of a schedule carry one passenger after the other. -/
def Paired (s : Schedule R) : Prop := Ride.free.after? s.tasks = some .free

/-- Behind a pickup in a paired schedule stands the dropoff, with one drive at most between. -/
theorem Paired.trip {before rest : List (Task R)} {pickup : Task R} {request : RequestId}
    (h : Paired ⟨before ++ pickup :: rest⟩) (hpickup : pickup.kind = .pickup request) :
    Ride.free.after? before = some .free ∧ ∃ ride dropoff after,
      rest = ride ++ dropoff :: after ∧
      (ride = [] ∨ ∃ drive : Task R, ride = [drive] ∧ drive.kind.isDrive = true) ∧
      dropoff.kind = .dropoff request ∧ Ride.free.after? after = some .free := by
  unfold Paired at h
  rw [Ride.after?_append] at h
  cases hbefore : Ride.free.after? before with
  | none => simp [hbefore] at h
  | some ride =>
    rw [hbefore, Option.bind_some] at h
    have hfree : ride = .free := by
      refine Ride.free_of_pickup (a := []) (b := rest) hpickup (by simp) ?_
      simp [h]
    subst hfree
    refine ⟨rfl, Ride.exists_dropoff ?_⟩
    simpa [Ride.after?, Ride.next?, hpickup] using h

end Schedule

/-- The two ends of a trip. -/
inductive TripEnd where
  | boarding
  | alighting
  deriving DecidableEq, Repr

/-- Whether a task serves a request at one end of its trip. -/
def TripEnd.serves : TripEnd → RequestId → Task R → Bool
  | boarding => Vehicle.isPickupOf
  | alighting => Vehicle.isDropoffOf

@[simp] theorem TripEnd.serves_boarding {request : RequestId} {task : Task R} :
    boarding.serves request task = true ↔ task.kind = .pickup request := by
  unfold serves Vehicle.isPickupOf
  cases hkind : task.kind <;> simp [hkind]

@[simp] theorem TripEnd.serves_alighting {request : RequestId} {task : Task R} :
    alighting.serves request task = true ↔ task.kind = .dropoff request := by
  unfold serves Vehicle.isDropoffOf
  cases hkind : task.kind <;> simp [hkind]

theorem TripEnd.request?_of_serves {e : TripEnd} {request : RequestId} {task : Task R}
    (h : e.serves request task = true) : task.kind.request? = some request := by
  cases e <;> simp only [serves_boarding, serves_alighting] at h <;> simp [h, TaskKind.request?]

namespace Schedule

/-- The tasks of a schedule that serve a request at one end of its trip: whether each is over. -/
def visits (s : Schedule R) (e : TripEnd) (request : RequestId) : List Bool :=
  (s.tasks.filter (e.serves request)).map fun task => task.status = .performed

variable {e : TripEnd} {request : RequestId}

@[simp] theorem visits_append (a b : List (Task R)) :
    visits ⟨a ++ b⟩ e request = visits ⟨a⟩ e request ++ visits ⟨b⟩ e request := by
  simp [visits]

theorem visits_cons (task : Task R) (rest : List (Task R)) :
    visits ⟨task :: rest⟩ e request = visits ⟨[task]⟩ e request ++ visits ⟨rest⟩ e request :=
  visits_append [task] rest

theorem visits_eq_nil_iff {tasks : List (Task R)} :
    visits ⟨tasks⟩ e request = [] ↔ ∀ task ∈ tasks, e.serves request task = false := by
  unfold visits
  rw [List.map_eq_nil_iff, List.filter_eq_nil_iff]
  simp

/-- Tasks that serve other requests or none do not visit this one. -/
theorem visits_eq_nil {tasks : List (Task R)}
    (h : ∀ task ∈ tasks, task.kind.request? ≠ some request) : visits ⟨tasks⟩ e request = [] :=
  visits_eq_nil_iff.mpr fun task htask =>
    Bool.eq_false_iff.mpr fun hserves => h task htask (TripEnd.request?_of_serves hserves)

/-- Idle time visits nobody. -/
theorem visits_idle {tasks : List (Task R)} (h : ∀ task ∈ tasks, task.isStay = true) :
    visits ⟨tasks⟩ e request = [] :=
  visits_eq_nil fun task htask => by simp [Task.request?_eq_none (.inl (h task htask))]

theorem visits_of_serves {task : Task R} (h : e.serves request task = true) :
    visits ⟨[task]⟩ e request = [decide (task.status = .performed)] := by
  simp [visits, h]

end Schedule

end DemandTransport
