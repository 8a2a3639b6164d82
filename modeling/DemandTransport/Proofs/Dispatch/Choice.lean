import DemandTransport.Proofs.Dispatch.Cycle
import DemandTransport.Proofs.Network.LeastTime
import Mathlib.Data.List.Sort

/-!
# The choice of a vehicle

Of the vehicles that a policy names, the one with the cheapest plan serves a request, and of several
equally cheap ones the one with the lowest number. If none of them has a plan, the answer holds the
reason of each. The order in which a policy names vehicles does not matter, nor how often it names
one, nor which numbers it names that no vehicle has, since the vehicles are asked in ascending order
and each once.
-/

namespace DemandTransport

/-! ## Ascending lists -/

section Ascending

variable {kind : IdKind} {id x : Id kind} {ids ids' : List (Id kind)}

theorem mem_insertAscending : x ∈ insertAscending id ids ↔ x = id ∨ x ∈ ids := by
  induction ids with
  | nil => simp [insertAscending]
  | cons y rest ih =>
    rw [insertAscending]
    split
    · exact List.mem_cons
    · split
      next heq => simp [heq]
      next => rw [List.mem_cons, List.mem_cons, ih, or_left_comm]

theorem pairwise_insertAscending (h : ids.Pairwise (· < ·)) :
    (insertAscending id ids).Pairwise (· < ·) := by
  induction ids with
  | nil => simp [insertAscending]
  | cons y rest ih =>
    obtain ⟨hy, hrest⟩ := List.pairwise_cons.mp h
    rw [insertAscending]
    split
    next hlt =>
      refine List.pairwise_cons.mpr ⟨fun z hz => ?_, h⟩
      rcases List.mem_cons.mp hz with rfl | hz
      · exact hlt
      · exact Nat.lt_trans hlt (hy z hz)
    next hge =>
      split
      · exact h
      next hne =>
        refine List.pairwise_cons.mpr ⟨fun z hz => ?_, ih hrest⟩
        rcases mem_insertAscending.mp hz with rfl | hz
        · rw [Id.lt_iff] at *
          rw [Id.eq_iff] at hne
          omega
        · exact hy z hz

theorem mem_ascending : x ∈ ascending ids ↔ x ∈ ids := by
  induction ids with
  | nil => rfl
  | cons y rest ih =>
    change x ∈ insertAscending y (ascending rest) ↔ _
    rw [mem_insertAscending, ih, List.mem_cons]

theorem pairwise_ascending : (ascending ids).Pairwise (· < ·) := by
  induction ids with
  | nil => exact .nil
  | cons y rest ih => exact pairwise_insertAscending ih

/-- Order and repetition make no difference to the ascending list. -/
theorem ascending_congr (h : ∀ id, id ∈ ids ↔ id ∈ ids') : ascending ids = ascending ids' := by
  have : Std.Irrefl fun a b : Id kind => a < b := ⟨fun a => Nat.lt_irrefl a.index⟩
  have : Std.Antisymm fun a b : Id kind => a < b := ⟨fun a b h h' => (Nat.lt_asymm h h').elim⟩
  have hmem : ∀ id, id ∈ ascending ids ↔ id ∈ ascending ids' := fun id => by
    rw [mem_ascending, mem_ascending, h id]
  exact pairwise_ascending.eq_of_mem_iff pairwise_ascending hmem

end Ascending

/-! ## The cheapest plan -/

/-- Costs are in a strict order, in which those that are not ordered are equal for every comparison
with a third one. -/
class OrderedCosts (R : Type) [Scalar R] : Prop where
  asymm : ∀ {a b : R}, Scalar.totalLt a b = true → Scalar.totalLt b a = false
  negTrans : ∀ {a b c : R}, Scalar.totalLt a b = false → Scalar.totalLt b c = false →
    Scalar.totalLt a c = false

/-- Floating-point costs are compared through integers. -/
instance : OrderedCosts Float where
  asymm {a b} h := by
    simp only [Scalar.totalLt, decide_eq_true_eq, decide_eq_false_iff_not] at *
    omega
  negTrans {a b c} hab hbc := by
    simp only [Scalar.totalLt, decide_eq_false_iff_not] at *
    omega

instance : OrderedCosts Rat where
  asymm {a b} h := by
    simp only [Scalar.totalLt, decide_eq_true_eq, decide_eq_false_iff_not] at *
    exact Rat.not_lt.mpr (Rat.le_of_lt h)
  negTrans {a b c} hab hbc := by
    simp only [Scalar.totalLt, decide_eq_false_iff_not] at *
    exact Rat.not_lt.mpr (Rat.le_trans (Rat.not_lt.mp hbc) (Rat.not_lt.mp hab))

variable {R : Type} [Scalar R]

theorem OrderedCosts.trans [OrderedCosts R] {a b c : R} (hab : Scalar.totalLt a b = true)
    (hbc : Scalar.totalLt b c = true) : Scalar.totalLt a c = true := by
  by_contra hac
  have h := negTrans (eq_false_of_ne_true hac) (asymm hbc)
  rw [hab] at h
  cases h

namespace Dispatcher

/-- The plan that comes first among the cheapest ones of a list. -/
def IsCheapest (plans : List (Insertion R)) (best : Insertion R) : Prop :=
  ∃ before after, plans = before ++ best :: after ∧
    (∀ plan ∈ before, Scalar.totalLt best.cost plan.cost = true) ∧
    ∀ plan ∈ after, Scalar.totalLt plan.cost best.cost = false

/-- Of two plans at the front of a list, the cheaper one stands for both; the first one if they are
equally cheap. -/
theorem IsCheapest.cons [OrderedCosts R] {first second best : Insertion R}
    {rest : List (Insertion R)}
    (h : IsCheapest
      ((if Scalar.totalLt second.cost first.cost then second else first) :: rest) best) :
    IsCheapest (first :: second :: rest) best := by
  obtain ⟨before, after, hsplit, hbefore, hafter⟩ := h
  split at hsplit
  next hlt =>
    cases before with
    | nil =>
      cases hsplit
      exact ⟨[first], rest, rfl, by simpa using hlt, hafter⟩
    | cons plan before =>
      cases hsplit
      refine ⟨first :: second :: before, after, rfl, fun plan hplan => ?_, hafter⟩
      rcases List.mem_cons.mp hplan with rfl | hplan
      · exact OrderedCosts.trans (hbefore second (by simp)) hlt
      · exact hbefore plan hplan
  next hnlt =>
    have hge : Scalar.totalLt second.cost first.cost = false := eq_false_of_ne_true hnlt
    cases before with
    | nil =>
      cases hsplit
      refine ⟨[], second :: rest, rfl, by simp, fun plan hplan => ?_⟩
      rcases List.mem_cons.mp hplan with rfl | hplan
      · exact hge
      · exact hafter plan hplan
    | cons plan before =>
      cases hsplit
      refine ⟨first :: second :: before, after, rfl, fun plan hplan => ?_, hafter⟩
      have hfirst := hbefore first (by simp)
      simp only [List.mem_cons] at hplan
      rcases hplan with rfl | rfl | hplan
      · exact hfirst
      · by_contra hbest
        rw [OrderedCosts.negTrans (eq_false_of_ne_true hbest) hge] at hfirst
        cases hfirst
      · exact hbefore plan (by simp [hplan])

/-- There is a cheapest plan unless there is no plan. -/
theorem cheapest_cons [OrderedCosts R] (first : Insertion R) (rest : List (Insertion R)) :
    ∃ best, cheapest (first :: rest) = some best ∧ IsCheapest (first :: rest) best := by
  induction rest generalizing first with
  | nil => exact ⟨first, rfl, [], [], rfl, by simp, by simp⟩
  | cons second rest ih =>
    obtain ⟨best, hbest, hleast⟩ :=
      ih (if Scalar.totalLt second.cost first.cost then second else first)
    refine ⟨best, ?_, hleast.cons⟩
    rw [← hbest]
    unfold cheapest
    simp only [List.foldl_cons]
    split <;> rfl

/-! ## The vehicles that are asked -/

variable {policy policy' : CandidatePolicy R} {ctx : DispatchContext R} {fleet : Fleet R}
  {request : Request}

omit [Scalar R] in
/-- The vehicles that are asked are those of the fleet that the policy names. -/
theorem mem_candidates (hfleet : Numbered fleet.vehicles) {v : Vehicle R} :
    v ∈ candidates policy request fleet ↔
      v ∈ fleet.vehicles ∧ v.id ∈ policy request fleet := by
  simp only [candidates, List.mem_filterMap, mem_ascending, toOption_eq_some,
    Fleet.get_eq_ok hfleet]
  constructor
  · rintro ⟨_, hid, hv, rfl⟩
    exact ⟨hv, hid⟩
  · rintro ⟨hv, hid⟩
    exact ⟨v.id, hid, hv, rfl⟩

omit [Scalar R] in
/-- They are asked in ascending order, and each once. -/
theorem pairwise_candidates (hfleet : Numbered fleet.vehicles) :
    (candidates policy request fleet).Pairwise fun v w => v.id < w.id := by
  refine List.Pairwise.filterMap _ (fun id id' hlt v hv w hw => ?_) pairwise_ascending
  rwa [((Fleet.get_eq_ok hfleet).mp (toOption_eq_some.mp hv)).2,
    ((Fleet.get_eq_ok hfleet).mp (toOption_eq_some.mp hw)).2]

/-- The rejections among the answers of some vehicles. -/
theorem mem_rejections {vehicles : List (Vehicle R)} {rejection : Rejection R} :
    rejection ∈ rejections (answers ctx request vehicles) ↔
      ∃ v ∈ vehicles, v.id = rejection.vehicle ∧
        v.evaluate ctx request = .error rejection.reason := by
  simp only [rejections, answers, List.filterMap_map, List.mem_filterMap, Function.comp_apply]
  refine exists_congr fun v => and_congr_right fun _ => ?_
  cases v.evaluate ctx request with
  | ok plan => simp
  | error reason =>
    cases rejection
    simp

/-- The plans among the answers of vehicles stand in the order of these. -/
theorem pairwise_plans {vehicles : List (Vehicle R)}
    (h : vehicles.Pairwise fun v w => v.id < w.id) :
    (plans (answers ctx request vehicles)).Pairwise fun p q => p.vehicle < q.vehicle := by
  simp only [plans, answers, List.filterMap_map]
  refine h.filterMap _ fun v w hlt p hp q hq => ?_
  obtain ⟨_, _, _, _, _, hp⟩ := Vehicle.evaluate_ok (toOption_eq_some.mp hp)
  obtain ⟨_, _, _, _, _, hq⟩ := Vehicle.evaluate_ok (toOption_eq_some.mp hq)
  rwa [hp.vehicle, hq.vehicle]

/-- So do the rejections. -/
theorem pairwise_rejections {vehicles : List (Vehicle R)}
    (h : vehicles.Pairwise fun v w => v.id < w.id) :
    (rejections (answers ctx request vehicles)).Pairwise fun r q => r.vehicle < q.vehicle := by
  have hvehicle (v : Vehicle R) (r : Rejection R)
      (hr : r ∈ rejections (answers ctx request [v])) : r.vehicle = v.id := by
    obtain ⟨w, hw, hid, -⟩ := mem_rejections.mp hr
    rw [← hid, List.mem_singleton.mp hw]
  simp only [rejections, answers, List.filterMap_map] at hvehicle ⊢
  refine h.filterMap _ fun v w hlt r hr q hq => ?_
  rwa [hvehicle v r (by simpa using hr), hvehicle w q (by simpa using hq)]

/-! ## The answer to a request -/

/-- An answer to a request is the choice among the vehicles that a list names. -/
structure IsChoice (ctx : DispatchContext R) (request : Request) (vehicles : List (Vehicle R))
    (ids : List VehicleId) (answer : Except (List (Rejection R)) (Insertion R)) : Prop where
  /-- It is a plan if and only if some vehicle that is named has one. -/
  isOk_iff : (∃ plan, answer = .ok plan) ↔
    ∃ v ∈ vehicles, v.id ∈ ids ∧ ∃ plan, v.evaluate ctx request = .ok plan
  /-- The plan is the own one of a vehicle that is named. -/
  own : ∀ plan, answer = .ok plan →
    ∃ v ∈ vehicles, v.id ∈ ids ∧ v.id = plan.vehicle ∧ v.evaluate ctx request = .ok plan
  /-- No vehicle that is named has a cheaper plan, and none with a lower number an equally cheap
  one. -/
  least : ∀ plan, answer = .ok plan → ∀ v ∈ vehicles, v.id ∈ ids →
    ∀ other, v.evaluate ctx request = .ok other →
      Scalar.totalLt other.cost plan.cost = false ∧
        (Scalar.totalLt plan.cost other.cost = false → plan.vehicle ≤ v.id)
  /-- Rejections come in ascending order, and each vehicle once. -/
  ascending : ∀ reasons, answer = .error reasons →
    reasons.Pairwise fun r q => r.vehicle < q.vehicle
  /-- They are those of the vehicles that are named, with what each of them answers. -/
  answered : ∀ reasons, answer = .error reasons → ∀ r, r ∈ reasons ↔
    ∃ v ∈ vehicles, v.id ∈ ids ∧ v.id = r.vehicle ∧ v.evaluate ctx request = .error r.reason
  /-- Each vehicle that is named is among them. -/
  complete : ∀ reasons, answer = .error reasons → ∀ v ∈ vehicles, v.id ∈ ids →
    ∃ reason, ⟨v.id, reason⟩ ∈ reasons

/-- The best plan of vehicles in ascending order is the lowest of the cheapest ones. -/
theorem IsCheapest.least [OrderedCosts R] {plans : List (Insertion R)} {best plan : Insertion R}
    (h : IsCheapest plans best) (hplans : plans.Pairwise fun p q => p.vehicle < q.vehicle)
    (hplan : plan ∈ plans) :
    Scalar.totalLt plan.cost best.cost = false ∧
      (Scalar.totalLt best.cost plan.cost = false → best.vehicle ≤ plan.vehicle) := by
  obtain ⟨before, after, rfl, hbefore, hafter⟩ := h
  obtain ⟨-, hbehind, -⟩ := List.pairwise_append.mp hplans
  have hlater := (List.pairwise_cons.mp hbehind).1
  simp only [List.mem_append, List.mem_cons] at hplan
  rcases hplan with hplan | rfl | hplan
  · have hlt := hbefore plan hplan
    exact ⟨OrderedCosts.asymm hlt, fun hge => by rw [hlt] at hge; cases hge⟩
  · refine ⟨?_, fun _ => Nat.le_refl _⟩
    by_contra hlt
    exact hlt (OrderedCosts.asymm (eq_true_of_ne_false hlt))
  · exact ⟨hafter plan hplan, fun _ => Nat.le_of_lt (hlater plan hplan)⟩

section Asked

variable {vehicles asked : List (Vehicle R)} {ids : List VehicleId}

/-- If no vehicle that is asked has a plan, their reasons are the answer. -/
theorem isChoice_rejections (hasked : ∀ v, v ∈ asked ↔ v ∈ vehicles ∧ v.id ∈ ids)
    (hascending : asked.Pairwise fun v w => v.id < w.id)
    (hnone : plans (answers ctx request asked) = []) :
    IsChoice ctx request vehicles ids (.error (rejections (answers ctx request asked))) := by
  have hreason : ∀ v ∈ vehicles, v.id ∈ ids → ∃ reason, v.evaluate ctx request = .error reason := by
    intro v hv hid
    cases heval : v.evaluate ctx request with
    | error reason => exact ⟨reason, rfl⟩
    | ok plan =>
      have hplan := mem_plans.mpr ⟨v, (hasked v).mpr ⟨hv, hid⟩, heval⟩
      rw [hnone] at hplan
      cases hplan
  refine ⟨⟨fun ⟨_, h⟩ => (by cases h), ?_⟩, fun _ h => (by cases h), fun _ h => (by cases h),
    ?_, ?_, ?_⟩
  · rintro ⟨v, hv, hid, plan, hplan⟩
    obtain ⟨reason, hrejected⟩ := hreason v hv hid
    rw [hplan] at hrejected
    cases hrejected
  · rintro _ ⟨⟩
    exact pairwise_rejections hascending
  · rintro _ ⟨⟩ r
    simp only [mem_rejections, hasked, and_assoc]
  · rintro _ ⟨⟩ v hv hid
    obtain ⟨reason, hrejected⟩ := hreason v hv hid
    exact ⟨reason, mem_rejections.mpr ⟨v, (hasked v).mpr ⟨hv, hid⟩, rfl, hrejected⟩⟩

/-- Otherwise it is the lowest of the cheapest plans. -/
theorem isChoice_cheapest [OrderedCosts R] {best : Insertion R}
    (hasked : ∀ v, v ∈ asked ↔ v ∈ vehicles ∧ v.id ∈ ids)
    (hascending : asked.Pairwise fun v w => v.id < w.id)
    (hbest : IsCheapest (plans (answers ctx request asked)) best) :
    IsChoice ctx request vehicles ids (.ok best) := by
  have hmem : best ∈ plans (answers ctx request asked) := by
    obtain ⟨before, after, hsplit, -, -⟩ := hbest
    rw [hsplit]
    simp
  obtain ⟨v, hv, heval⟩ := mem_plans.mp hmem
  obtain ⟨hv, hid⟩ := (hasked v).mp hv
  obtain ⟨_, _, _, _, _, hmade⟩ := Vehicle.evaluate_ok heval
  refine ⟨⟨fun _ => ⟨v, hv, hid, best, heval⟩, fun _ => ⟨best, rfl⟩⟩, ?_, ?_,
    fun _ h => (by cases h), fun _ h => (by cases h), fun _ h => (by cases h)⟩
  · rintro _ ⟨⟩
    exact ⟨v, hv, hid, hmade.vehicle.symm, heval⟩
  · rintro _ ⟨⟩ w hw hwid other hother
    obtain ⟨_, _, _, _, _, howner⟩ := Vehicle.evaluate_ok hother
    rw [← howner.vehicle]
    exact hbest.least (pairwise_plans hascending)
      (mem_plans.mpr ⟨w, (hasked w).mpr ⟨hw, hwid⟩, hother⟩)

end Asked

/-- The answer of a fleet to a request is the choice among the vehicles that the policy names. It is
the same for every policy that names the same vehicles. -/
theorem bestInsertion_isChoice [OrderedCosts R] {vehicles : List (Vehicle R)}
    (hfleet : Fleet.ofVehicles vehicles = .ok fleet) (policy : CandidatePolicy R)
    (ctx : DispatchContext R) (request : Request) :
    IsChoice ctx request vehicles (policy request fleet)
        (bestInsertion policy ctx fleet request) ∧
      ∀ policy' : CandidatePolicy R,
        (∀ id, id ∈ policy' request fleet ↔ id ∈ policy request fleet) →
        bestInsertion policy' ctx fleet request = bestInsertion policy ctx fleet request := by
  obtain ⟨hperm, hnumbered⟩ := Fleet.ofVehicles_ok hfleet
  refine ⟨?_, fun policy' hsame => by simp only [bestInsertion, candidates, ascending_congr hsame]⟩
  have hasked : ∀ v, v ∈ candidates policy request fleet ↔
      v ∈ vehicles ∧ v.id ∈ policy request fleet := fun v => by
    rw [mem_candidates hnumbered, hperm.mem_iff]
  have hascending : (candidates policy request fleet).Pairwise fun v w => v.id < w.id :=
    pairwise_candidates hnumbered
  unfold bestInsertion
  dsimp only
  cases hplans : plans (answers ctx request (candidates policy request fleet)) with
  | nil => exact isChoice_rejections hasked hascending hplans
  | cons first rest =>
    obtain ⟨best, hbest, hleast⟩ := cheapest_cons first rest
    rw [hbest]
    exact isChoice_cheapest hasked hascending (hplans ▸ hleast)

/-- The second vehicle stands where the request begins and so does the third one, while the first
one has to drive. A list that names all three, one of them twice, and a fourth that does not exist
leads to the second vehicle, as the ascending list does. -/
theorem bestInsertion_isChoice_threeVehicles :
    let idle (id : VehicleId) (node : NodeId) : Vehicle Rat :=
      ⟨id, node, .zero, .ofSecs 9000, 1, none, ⟨[Task.stay node .zero (.ofSecs 9000)]⟩⟩
    let vehicles : List (Vehicle Rat) := [idle ⟨2⟩ ⟨1⟩, idle ⟨0⟩ ⟨0⟩, idle ⟨1⟩ ⟨1⟩]
    let fleet : Fleet Rat := ⟨[idle ⟨0⟩ ⟨0⟩, idle ⟨1⟩ ⟨1⟩, idle ⟨2⟩ ⟨1⟩]⟩
    let ctx : DispatchContext Rat := ⟨LeastTime.freeLoops, LeastTime.route, {}, .ofSecs 60⟩
    let request : Request := ⟨⟨0⟩, ⟨0⟩, ⟨1⟩, ⟨2⟩, .zero, none⟩
    let answer := bestInsertion (.listed [⟨2⟩, ⟨9⟩, ⟨0⟩, ⟨1⟩, ⟨2⟩]) ctx fleet request
    Fleet.ofVehicles vehicles = .ok fleet ∧
      IsChoice ctx request vehicles [⟨2⟩, ⟨9⟩, ⟨0⟩, ⟨1⟩, ⟨2⟩] answer ∧
      bestInsertion (.listed [⟨0⟩, ⟨1⟩, ⟨2⟩, ⟨9⟩]) ctx fleet request = answer ∧
      answer.toOption.map Insertion.vehicle = some ⟨1⟩ := by
  intro idle vehicles fleet ctx request answer
  have hfleet : Fleet.ofVehicles vehicles = .ok fleet := by
    simp [Fleet.ofVehicles, Fleet.misnumbered?, vehicles, fleet, idle, Id.le_iff, List.mergeSort,
      List.MergeSort.Internal.splitInTwo]
  obtain ⟨hchoice, hsame⟩ := bestInsertion_isChoice hfleet
    (.listed [⟨2⟩, ⟨9⟩, ⟨0⟩, ⟨1⟩, ⟨2⟩]) ctx request
  refine ⟨hfleet, hchoice, hsame _ fun id => ?_, by decide +kernel⟩
  simp only [CandidatePolicy.listed, List.mem_cons, List.not_mem_nil, or_false]
  tauto

end Dispatcher

end DemandTransport
