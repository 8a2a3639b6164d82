import DemandTransport.Proofs.Schedule.Bisection
import Mathlib.Data.List.Chain

/-!
# Valid schedules

The conditions on schedules as a property of neighbouring tasks: every task is sound, and each one
can stand directly before the next. The check finds no fault exactly when they hold. They order all
tasks in time and by status, so looking up an instant finds the one task that covers it, and a task
can be replaced by others that fit between its neighbours.
-/

namespace DemandTransport

variable {R : Type}

/-- A task takes time, and only a drive moves the vehicle. -/
structure Task.Sound (task : Task R) : Prop where
  /-- It ends after its begin. -/
  lasts : task.start < task.finish
  /-- It ends where it begins, unless it is a drive. -/
  stays : task.kind.isDrive = true ∨ task.source = task.target

/-- Idle time is of one kind only. -/
theorem Task.kind_of_isStay {task : Task R} (h : task.isStay = true) :
    ∃ charger, task.kind = .stay charger := by
  unfold Task.isStay TaskKind.isStay at h
  cases hkind : task.kind <;> simp_all

/-- Idle time does not move the vehicle. -/
theorem Task.not_isDrive {task : Task R} (h : task.isStay = true) :
    task.kind.isDrive = false := by
  obtain ⟨charger, hkind⟩ := Task.kind_of_isStay h
  rw [hkind]
  rfl

/-- Only charging leaves a vehicle docked. -/
theorem TaskKind.docksAt_eq_some_iff {kind : TaskKind R} {charger : ChargerId} :
    kind.docksAt = some charger ↔ kind = .charge charger := by
  cases kind <;> simp [docksAt]

/-- Idle time and drives serve no request. -/
theorem Task.request?_eq_none {task : Task R} (h : task.isStay = true ∨ task.kind.isDrive = true) :
    task.kind.request? = none := by
  unfold isStay at h
  cases hkind : task.kind <;> simp_all [TaskKind.isStay, TaskKind.isDrive, TaskKind.request?]

/-- A task can stand directly before another one. -/
structure Task.Precedes (task next : Task R) : Prop where
  /-- There is neither a gap nor an overlap. -/
  time : task.finish = next.start
  /-- The vehicle does not jump. -/
  place : task.target = next.source
  /-- A task that is not over is followed by planned ones only. -/
  order : task.status = .performed ∨ next.status = .planned

namespace Schedule

/-- The conditions on schedules. -/
structure Valid (s : Schedule R) : Prop where
  /-- There is a task. -/
  nonempty : s.tasks ≠ []
  /-- Every task is sound. -/
  sound : ∀ task ∈ s.tasks, task.Sound
  /-- Neighbours fit together. -/
  seams : s.tasks.IsChain Task.Precedes

/-- A valid schedule from one end of a horizon to the other. -/
structure ValidOver (s : Schedule R) (start finish : Time) : Prop extends s.Valid where
  /-- The first task begins with the horizon. -/
  begins : s.start = start
  /-- The last task ends with the horizon. -/
  ends : s.finish = finish

/-! ## The check -/

/-- Where one fault is looked for after the other, none is found exactly when no condition for a
fault holds. -/
theorem fault_or_eq_none_iff {φ : Type} {p : Prop} [Decidable p] {fault : φ} {rest : Option φ} :
    (if p then some fault else rest) = none ↔ ¬p ∧ rest = none := by
  split
  next h => simp [h]
  next h => simp [h]

/-- The state of the check after a task: a task is being executed or was, and is noted as such. -/
def Noted (previous : TaskStatus) (seen : Bool) : Prop :=
  (previous = .performed → seen = false) ∧ (previous = .started → seen = true)

theorem taskFault?_eq_none_iff {index : Nat} {previous : TaskStatus} {seen : Bool} {task : Task R}
    (hnoted : Noted previous seen) :
    taskFault? index previous seen task = none ↔
      task.Sound ∧ (previous = .performed ∨ task.status = .planned) := by
  have hsound : task.Sound ↔
      ¬task.finish ≤ task.start ∧ ¬(!task.kind.isDrive ∧ task.source ≠ task.target) := by
    constructor
    · intro h
      refine ⟨by have := h.lasts; simp only [Time.le_iff, Time.lt_iff] at *; omega, ?_⟩
      rintro ⟨hdrive, hne⟩
      exact h.stays.elim (by simpa using hdrive) hne
    · rintro ⟨htime, hplace⟩
      refine ⟨by simp only [Time.le_iff, Time.lt_iff] at *; omega, ?_⟩
      by_cases hdrive : task.kind.isDrive = true
      · exact .inl hdrive
      · exact .inr (Classical.not_not.mp fun hne => hplace ⟨by simpa using hdrive, hne⟩)
  have horder : (previous = .performed ∨ task.status = .planned) ↔
      ¬previous.rank < task.status.rank ∧ ¬(task.status = .started ∧ seen = true) := by
    obtain ⟨hdone, hrunning⟩ := hnoted
    cases previous <;> cases hstatus : task.status <;> simp_all [TaskStatus.rank]
  rw [hsound, horder, taskFault?]
  simp only [fault_or_eq_none_iff]
  tauto

theorem seamFault?_eq_none_iff {index : Nat} {task next : Task R} :
    seamFault? index task next = none ↔
      task.finish = next.start ∧ task.target = next.source := by
  simp only [seamFault?, fault_or_eq_none_iff, not_not, and_true]

/-- From any state of the check on, no fault is found exactly in a chain of sound tasks whose first
one may follow. -/
theorem firstFault?_eq_none_iff {index : Nat} {previous : TaskStatus} {seen : Bool}
    {tasks : List (Task R)} (hnoted : Noted previous seen) :
    firstFault? index previous seen tasks = none ↔
      (∀ task ∈ tasks, task.Sound) ∧ tasks.IsChain Task.Precedes ∧
        ∀ task ∈ tasks.head?, previous = .performed ∨ task.status = .planned := by
  induction tasks generalizing index previous seen with
  | nil => simp [firstFault?]
  | cons task rest ih =>
    have hnext : (previous = .performed ∨ task.status = .planned) →
        Noted task.status (seen || task.status = .started) := by
      intro h
      unfold Noted at *
      cases hstatus : task.status <;> simp_all
    simp only [firstFault?, Option.or_eq_none_iff, taskFault?_eq_none_iff hnoted]
    constructor
    · rintro ⟨⟨hsound, hafter⟩, hseam, hrest⟩
      obtain ⟨hsounds, hchain, hfirst⟩ := (ih (hnext hafter)).mp hrest
      refine ⟨by simpa using ⟨hsound, hsounds⟩, ?_, by simpa using hafter⟩
      cases rest with
      | nil => exact .singleton _
      | cons next rest =>
        obtain ⟨htime, hplace⟩ := seamFault?_eq_none_iff.mp hseam
        exact .cons_cons ⟨htime, hplace, hfirst next rfl⟩ hchain
    · rintro ⟨hsounds, hchain, hafter⟩
      have hafter := hafter task rfl
      refine ⟨⟨hsounds task List.mem_cons_self, hafter⟩, ?_, (ih (hnext hafter)).mpr ?_⟩
      · cases rest with
        | nil => rfl
        | cons next rest =>
          have hseam := (List.isChain_cons_cons.mp hchain).1
          exact seamFault?_eq_none_iff.mpr ⟨hseam.time, hseam.place⟩
      · refine ⟨fun t ht => hsounds t (List.mem_cons_of_mem _ ht), hchain.tail, ?_⟩
        cases rest with
        | nil => simp
        | cons next rest =>
          have hseam := (List.isChain_cons_cons.mp hchain).1
          simpa using hseam.order

/-- The check finds no fault exactly in valid schedules. -/
theorem fault?_eq_none_iff {s : Schedule R} : s.fault? = none ↔ s.Valid := by
  unfold fault?
  cases htasks : s.tasks with
  | nil => simpa using fun h : s.Valid => h.nonempty htasks
  | cons task rest =>
    rw [if_neg (by simp), firstFault?_eq_none_iff ⟨fun _ => rfl, by simp⟩, ← htasks]
    exact ⟨fun ⟨hsound, hchain, _⟩ => ⟨by simp [htasks], hsound, hchain⟩,
      fun h => ⟨h.sound, h.seams, fun _ _ => .inl rfl⟩⟩

theorem validate_eq_ok_iff {s : Schedule R} : s.validate = .ok () ↔ s.Valid := by
  rw [← fault?_eq_none_iff]
  unfold validate
  cases s.fault? <;> simp

/-! ## Order -/

/-- A task is over before a later one begins, and a later one is begun only when it is over. -/
def Earlier (a b : Task R) : Prop :=
  a.finish ≤ b.start ∧ (a.status = .performed ∨ b.status = .planned)

theorem Valid.pairwise_earlier {s : Schedule R} (h : s.Valid) : s.tasks.Pairwise Earlier := by
  let EarlierSound (a b : Task R) : Prop := Earlier a b ∧ b.start < b.finish
  have : Trans EarlierSound EarlierSound EarlierSound := ⟨by
    rintro a b c ⟨⟨hab, hsab⟩, hb⟩ ⟨⟨hbc, hsbc⟩, hc⟩
    refine ⟨⟨?_, ?_⟩, hc⟩
    · simp only [Time.le_iff, Time.lt_iff] at *
      omega
    · rcases hsab with ha | hplanned
      · exact .inl ha
      · exact hsbc.elim (fun hdone => by simp [hplanned] at hdone) .inr⟩
  have hchain : s.tasks.IsChain EarlierSound := by
    refine h.seams.imp_of_mem_imp fun a b _ hb hab => ?_
    refine ⟨⟨?_, hab.order⟩, (h.sound b hb).lasts⟩
    rw [Time.le_iff, hab.time]
  exact (List.isChain_iff_pairwise.mp hchain).imp And.left

/-- Everything before a task is earlier, and everything behind it is later. -/
theorem Valid.earlier {before after : List (Task R)} {task : Task R}
    (h : Valid ⟨before ++ task :: after⟩) :
    (∀ a ∈ before, Earlier a task) ∧ ∀ b ∈ after, Earlier task b := by
  have hpairs := List.pairwise_append.mp h.pairwise_earlier
  exact ⟨fun a ha => hpairs.2.2 a ha task List.mem_cons_self,
    (List.pairwise_cons.mp hpairs.2.1).1⟩

/-- When a task is planned, so is everything behind it. -/
theorem Valid.planned_after {before after : List (Task R)} {task : Task R}
    (h : Valid ⟨before ++ task :: after⟩) (hopen : task.status ≠ .performed) :
    ∀ b ∈ after, b.status = .planned :=
  fun b hb => (h.earlier.2 b hb).2.resolve_left hopen

/-- When a task has been begun, everything before it is over. -/
theorem Valid.performed_before {before after : List (Task R)} {task : Task R}
    (h : Valid ⟨before ++ task :: after⟩) (hbegun : task.status ≠ .planned) :
    ∀ a ∈ before, a.status = .performed :=
  fun a ha => (h.earlier.1 a ha).2.resolve_right hbegun

@[simp] theorem start_cons (task : Task R) (rest : List (Task R)) :
    start ⟨task :: rest⟩ = task.start := rfl

@[simp] theorem finish_append_singleton (before : List (Task R)) (task : Task R) :
    finish ⟨before ++ [task]⟩ = task.finish := by
  simp [finish]

theorem eq_of_tasks {s : Schedule R} {tasks : List (Task R)} (h : s.tasks = tasks) :
    s = ⟨tasks⟩ := by
  cases s
  exact congrArg Schedule.mk h

/-- A list splits at the place of a member. -/
theorem exists_split {α : Type} {l : List α} {i : Nat} {a : α} (h : l[i]? = some a) :
    ∃ before after, l = before ++ a :: after ∧ before.length = i := by
  obtain ⟨hi, rfl⟩ := List.getElem?_eq_some_iff.mp h
  exact ⟨l.take i, l.drop (i + 1), by simp, by simp; omega⟩

/-- What is put into the place of some items leaves every other one at its place. -/
theorem getElem?_replace {α : Type} {before old new : List α} {i : Nat} {a : α}
    (hget : (before ++ old)[i]? = some a) (hold : a ∉ old) : (before ++ new)[i]? = some a := by
  rcases Nat.lt_or_ge i before.length with hi | hi
  · rw [List.getElem?_append_left hi] at hget ⊢
    exact hget
  · rw [List.getElem?_append_right hi] at hget
    exact (hold (List.mem_of_getElem? hget)).elim

/-- What is put into the place of one item leaves the items on both sides at their places. -/
theorem getElem?_replaceOne {α : Type} {before after : List α} {i : Nat} {a old new : α}
    (hget : (before ++ old :: after)[i]? = some a) (hne : i ≠ before.length) :
    (before ++ new :: after)[i]? = some a := by
  have hset : before ++ new :: after = (before ++ old :: after).set before.length new := by simp
  rw [hset, List.getElem?_set_ne hne.symm, hget]

end Schedule

end DemandTransport
