import DemandTransport.Simulation.Step
import Mathlib.Data.List.Basic
import Mathlib.Data.List.TakeWhile

/-!
# The queue of requests to come

Requests to come are held in the order of their submission, those of the same instant in the order
in which they were given. Sorting the requests of a scenario and adding others later keeps a request
before another one that is given after it and is not submitted earlier.
-/

namespace DemandTransport

namespace Request

variable {a b c : Request} {requests : List Request}

/-- A request stands in a list, and another one does not stand anywhere before it. -/
def ComesBefore (a b : Request) (requests : List Request) : Prop :=
  a ∈ requests.takeWhile (· ≠ b)

instance : Decidable (a.ComesBefore b requests) := inferInstanceAs (Decidable (_ ∈ _))

/-- A request at the head comes before all others, and none before it. -/
theorem comesBefore_cons : a.ComesBefore b (c :: requests) ↔
    c ≠ b ∧ (a = c ∨ a.ComesBefore b requests) := by
  unfold ComesBefore
  by_cases hc : c = b <;> simp [hc]

theorem submitted_trans (a b c : Request) (hab : decide (a.submitted ≤ b.submitted) = true)
    (hbc : decide (b.submitted ≤ c.submitted) = true) :
    decide (a.submitted ≤ c.submitted) = true :=
  decide_eq_true (Nat.le_trans (of_decide_eq_true hab) (of_decide_eq_true hbc))

theorem submitted_total (a b : Request) :
    (decide (a.submitted ≤ b.submitted) || decide (b.submitted ≤ a.submitted)) = true := by
  rw [Bool.or_eq_true, decide_eq_true_eq, decide_eq_true_eq]
  exact Nat.le_total a.submitted.secs b.submitted.secs

namespace ComesBefore

/-- Nothing comes before itself. -/
theorem ne (h : a.ComesBefore b requests) : a ≠ b := by
  simpa using List.mem_takeWhile_imp h

theorem mem (h : a.ComesBefore b requests) : a ∈ requests :=
  (List.takeWhile_prefix _).subset h

/-- What is in the list comes before what is not. -/
theorem of_not_mem (ha : a ∈ requests) (hb : b ∉ requests) : a.ComesBefore b requests := by
  have hall : requests.takeWhile (· ≠ b) = requests := by
    rw [List.takeWhile_eq_self_iff]
    intro c hc
    simpa using fun heq : c = b => hb (heq ▸ hc)
  rwa [ComesBefore, hall]

/-- What comes before a request at all comes before it in any first part of the list where one of
the two stands. -/
theorem of_append {rest : List Request} (h : a.ComesBefore b (requests ++ rest))
    (hany : a ∈ requests ∨ b ∈ requests) : a.ComesBefore b requests := by
  induction requests with
  | nil => simp at hany
  | cons c requests ih =>
    obtain ⟨hc, hfirst⟩ := comesBefore_cons.mp h
    refine comesBefore_cons.mpr ⟨hc, ?_⟩
    by_cases ha : a = c
    · exact .inl ha
    · refine .inr (ih (hfirst.resolve_left ha) ?_)
      simpa [ha, Ne.symm hc] using hany

/-- As often as the second request stands in the list, it stands behind the first one. -/
theorem iff_sublist : a.ComesBefore b requests ↔
    a ≠ b ∧ (a :: List.replicate (requests.count b) b).Sublist requests := by
  induction requests with
  | nil => simp [ComesBefore]
  | cons c requests ih =>
    rw [comesBefore_cons, ih, List.cons_sublist_cons']
    by_cases hc : c = b
    · subst hc
      refine iff_of_false (by simp) ?_
      rintro ⟨hne, hsub | ⟨heq, -⟩⟩
      · have hcount := hsub.count_le c
        rw [List.count_cons_of_ne hne, List.count_replicate_self, List.count_cons_self] at hcount
        omega
      · exact hne heq
    · rw [List.count_cons_of_ne hc]
      constructor
      · rintro ⟨-, rfl | ⟨hne, hsub⟩⟩
        · exact ⟨hc, .inr ⟨rfl, List.replicate_sublist_iff.mpr (Nat.le_refl _)⟩⟩
        · exact ⟨hne, .inl hsub⟩
      · rintro ⟨hne, hsub | ⟨rfl, -⟩⟩
        · exact ⟨hc, .inr ⟨hne, hsub⟩⟩
        · exact ⟨hc, .inl rfl⟩

/-- Requests that are put in the order of their submission keep their order where they can. -/
theorem mergeSort (h : a.ComesBefore b requests) (hsubmitted : a.submitted ≤ b.submitted) :
    a.ComesBefore b (requests.mergeSort fun x y => x.submitted ≤ y.submitted) := by
  obtain ⟨hne, hsub⟩ := iff_sublist.mp h
  have hperm := List.mergeSort_perm requests fun x y => decide (x.submitted ≤ y.submitted)
  refine iff_sublist.mpr ⟨hne, ?_⟩
  rw [hperm.count_eq]
  refine List.sublist_mergeSort submitted_trans submitted_total ?_ hsub
  refine List.pairwise_cons.mpr ⟨fun c hc => ?_, List.pairwise_replicate.mpr (.inr ?_)⟩
  · rw [List.eq_of_mem_replicate hc]
    exact decide_eq_true hsubmitted
  · exact decide_eq_true (Nat.le_refl b.submitted.secs)

end ComesBefore

end Request

namespace Simulation

variable {a b c : Request} {arrivals : List Request}

/-- A request that waits for its time is among those to come. -/
theorem enqueue_perm (request : Request) (arrivals : List Request) :
    (request :: arrivals).Perm (enqueue request arrivals) := by
  have hinserted := @List.perm_middle _ request
    (arrivals.takeWhile fun r => decide (r.submitted ≤ request.submitted))
    (arrivals.dropWhile fun r => decide (r.submitted ≤ request.submitted))
  rw [List.takeWhile_append_dropWhile] at hinserted
  exact hinserted.symm

theorem enqueue_cons (c first : Request) (rest : List Request) :
    enqueue c (first :: rest) =
      if first.submitted ≤ c.submitted then first :: enqueue c rest else c :: first :: rest := by
  unfold enqueue
  split
  next hle => simp [hle]
  next hle => simp [hle]

/-- The requests to come are in the order of their submission. -/
def InTurn (arrivals : List Request) : Prop :=
  arrivals.Pairwise fun x y => x.submitted ≤ y.submitted

/-- Sorted requests are in turn. -/
theorem inTurn_mergeSort (requests : List Request) :
    InTurn (requests.mergeSort fun x y => x.submitted ≤ y.submitted) :=
  (List.pairwise_mergeSort Request.submitted_trans Request.submitted_total requests).imp
    of_decide_eq_true

/-- A request that is queued finds its turn. -/
theorem InTurn.enqueue (h : InTurn arrivals) : InTurn (enqueue c arrivals) := by
  induction arrivals with
  | nil => simp [Simulation.enqueue, InTurn]
  | cons first rest ih =>
    obtain ⟨hfirst, hrest⟩ := List.pairwise_cons.mp h
    rw [enqueue_cons]
    split
    next hle =>
      refine List.pairwise_cons.mpr ⟨fun r hr => ?_, ih hrest⟩
      rcases List.mem_cons.mp ((enqueue_perm c rest).mem_iff.mpr hr) with rfl | hr
      · exact hle
      · exact hfirst r hr
    next hlt =>
      have hle : c.submitted ≤ first.submitted := Nat.le_of_not_le hlt
      refine List.pairwise_cons.mpr ⟨fun r hr => ?_, h⟩
      rcases List.mem_cons.mp hr with rfl | hr
      · exact hle
      · exact Nat.le_trans hle (hfirst r hr)

/-- If the first one in the queue is not due, nothing is. -/
theorem InTurn.filter_eq_nil {now : Time} {rest : List Request} (h : InTurn (c :: rest))
    (hlater : ¬c.submitted ≤ now) :
    (c :: rest).filter (fun request => request.submitted ≤ now) = [] := by
  refine List.filter_eq_nil_iff.mpr fun request hrequest hdue => hlater ?_
  rcases List.mem_cons.mp hrequest with rfl | hrest
  · exact of_decide_eq_true hdue
  · exact Nat.le_trans ((List.pairwise_cons.mp h).1 request hrest) (of_decide_eq_true hdue)

/-- What is due stands at the front of the queue. -/
theorem InTurn.exists_later (h : InTurn arrivals) (now : Time) :
    ∃ later, arrivals = arrivals.filter (fun request => request.submitted ≤ now) ++ later ∧
      later.filter (fun request => request.submitted ≤ now) = [] := by
  induction arrivals with
  | nil => exact ⟨[], rfl, rfl⟩
  | cons first rest ih =>
    by_cases hdue : first.submitted ≤ now
    · obtain ⟨later, hsplit, hlater⟩ := ih (List.pairwise_cons.mp h).2
      refine ⟨later, ?_, hlater⟩
      simp only [List.filter_cons, hdue, decide_true, if_true, List.cons_append, ← hsplit]
    · refine ⟨first :: rest, ?_, h.filter_eq_nil hdue⟩
      rw [h.filter_eq_nil hdue, List.nil_append]

/-- A request keeps its place before another one, also when that one joins the queue. -/
theorem comesBefore_enqueue (h : InTurn arrivals) (hfirst : a.ComesBefore b arrivals)
    (hsubmitted : a.submitted ≤ b.submitted) : a.ComesBefore b (enqueue c arrivals) := by
  induction arrivals with
  | nil => cases hfirst.mem
  | cons first rest ih =>
    obtain ⟨hne, hlater⟩ := Request.comesBefore_cons.mp hfirst
    obtain ⟨hle, hrest⟩ := List.pairwise_cons.mp h
    rw [enqueue_cons]
    split
    · exact Request.comesBefore_cons.mpr ⟨hne, hlater.imp_right (ih hrest)⟩
    next hlt =>
      refine Request.comesBefore_cons.mpr ⟨?_, .inr hfirst⟩
      rintro rfl
      have hfirstLe : first.submitted ≤ a.submitted := by
        rcases hlater with rfl | hlater
        · exact Nat.le_refl _
        · exact hle a hlater.mem
      exact hlt (Nat.le_trans hfirstLe hsubmitted)

end Simulation

end DemandTransport
