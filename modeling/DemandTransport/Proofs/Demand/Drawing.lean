import Mathlib.Algebra.Order.Ring.Rat
import Mathlib.Data.Set.Function
import Mathlib.Tactic.Positivity
import DemandTransport.Demand.Generate
import DemandTransport.Network.Basic

/-!
# Random demand is well formed

A gap is drawn before each request, and two numbers for the ends of its trip; the second number
skips the origin. Whatever is drawn, as long as no gap is negative and every number stays below its
bound, the requests follow one another within the time of demand, each between two different nodes,
and every such trip comes from exactly one pair of numbers.
-/

namespace DemandTransport

/-! ## Trips -/

/-- The numbers from which a trip comes. -/
def tripNumbers (ends : NodeId × NodeId) : Nat × Nat :=
  (ends.1.index, if ends.1 < ends.2 then ends.2.index - 1 else ends.2.index)

theorem tripNumbers_tripEnds (first second : Nat) :
    tripNumbers (tripEnds first second) = (first, second) := by
  unfold tripEnds tripNumbers
  simp only [Id.lt_iff, Prod.mk.injEq, true_and]
  split <;> split <;> omega

theorem tripEnds_tripNumbers {ends : NodeId × NodeId} (h : ends.1 ≠ ends.2) :
    tripEnds (tripNumbers ends).1 (tripNumbers ends).2 = ends := by
  obtain ⟨⟨origin⟩, ⟨destination⟩⟩ := ends
  replace h : origin ≠ destination := by simpa using h
  simp only [tripEnds, tripNumbers, Id.lt_iff, Prod.mk.injEq, Id.mk.injEq, true_and]
  split <;> split <;> omega

/-- A number below the count of nodes and one below that count less one stand for a trip from a node
to another one, and every such trip for exactly one such pair of numbers. -/
theorem tripEnds_bijOn (nodes : Nat) :
    Set.BijOn (fun numbers : Nat × Nat => tripEnds numbers.1 numbers.2)
      {numbers | numbers.1 < nodes ∧ numbers.2 < nodes - 1}
      {ends | ends.1.index < nodes ∧ ends.2.index < nodes ∧ ends.1 ≠ ends.2} := by
  have hinverse : Set.InvOn tripNumbers (fun numbers : Nat × Nat => tripEnds numbers.1 numbers.2)
      {numbers | numbers.1 < nodes ∧ numbers.2 < nodes - 1}
      {ends | ends.1.index < nodes ∧ ends.2.index < nodes ∧ ends.1 ≠ ends.2} :=
    ⟨fun numbers _ => tripNumbers_tripEnds numbers.1 numbers.2,
      fun ends hends => tripEnds_tripNumbers hends.2.2⟩
  refine hinverse.bijOn ?_ ?_
  · rintro ⟨first, second⟩ ⟨hfirst, hsecond⟩
    simp only [Set.mem_ofPred_eq, tripEnds, ne_eq, Id.mk.injEq] at hfirst hsecond ⊢
    split <;> omega
  · rintro ⟨⟨origin⟩, ⟨destination⟩⟩ ⟨horigin, hdestination, hapart⟩
    replace hapart : origin ≠ destination := by simpa using hapart
    simp only [Set.mem_ofPred_eq, tripNumbers, Id.lt_iff] at horigin hdestination ⊢
    split <;> omega

/-! ## Draws -/

namespace DrawSource

variable {R G : Type}

/-- The gap before the next request. -/
def gap (source : DrawSource R G) (config : DemandConfig R) (g : G) : R :=
  (source.exponential g config.meanGap).1

/-- The source once a gap has been drawn. -/
def afterGap (source : DrawSource R G) (config : DemandConfig R) (g : G) : G :=
  (source.exponential g config.meanGap).2

/-- The ends of the next trip between so many nodes. -/
def trip (source : DrawSource R G) (nodes : Nat) (g : G) : NodeId × NodeId :=
  tripEnds (source.below g nodes).1 (source.below (source.below g nodes).2 (nodes - 1)).1

/-- The source once the ends of a trip have been drawn. -/
def afterTrip (source : DrawSource R G) (nodes : Nat) (g : G) : G :=
  (source.below (source.below g nodes).2 (nodes - 1)).2

/-- The source once the gap before a request and the ends of its trip have been drawn. -/
def afterRequest (source : DrawSource R G) (config : DemandConfig R) (nodes : Nat) (g : G) : G :=
  source.afterTrip nodes (source.afterGap config g)

/-- Numbers are drawn below their bounds. -/
def StaysBelow (source : DrawSource R G) : Prop :=
  ∀ g bound, 0 < bound → (source.below g bound).1 < bound

/-- Trips join two different nodes. -/
theorem StaysBelow.trip {source : DrawSource R G} (h : source.StaysBelow) {nodes : Nat}
    (hnodes : 2 ≤ nodes) (g : G) :
    (source.trip nodes g).1.index < nodes ∧ (source.trip nodes g).2.index < nodes ∧
      (source.trip nodes g).1 ≠ (source.trip nodes g).2 := by
  have hfirst := h g nodes (by omega)
  have hsecond := h (source.below g nodes).2 (nodes - 1) (by omega)
  exact (tripEnds_bijOn nodes).mapsTo
    (x := ((source.below g nodes).1, (source.below (source.below g nodes).2 (nodes - 1)).1))
    ⟨hfirst, hsecond⟩

variable [Scalar R]

/-- The time to which the gaps after time `t` add up at the request behind so many others. -/
def timeAt (source : DrawSource R G) (config : DemandConfig R) (nodes : Nat) : R → G → Nat → R
  | t, g, 0 => t + source.gap config g
  | t, g, behind + 1 =>
    source.timeAt config nodes (t + source.gap config g) (source.afterRequest config nodes g) behind

/-- Requests are drawn after time `t` and numbered from `number` on until one would be submitted at
the end of demand or later, however many there are. -/
inductive Draws (source : DrawSource R G) (config : DemandConfig R) (nodes : Nat) :
    R → Nat → G → List Request → G → Prop where
  /-- The next request would be submitted too late. -/
  | late {t : R} {number : Nat} {g : G}
    (h : config.finish ≤ Time.ofSecs (Scalar.floor (t + source.gap config g))) :
    Draws source config nodes t number g [] (source.afterGap config g)
  /-- A request is drawn, and others after it. -/
  | another {t : R} {number : Nat} {g g' : G} {rest : List Request}
    (h : ¬config.finish ≤ Time.ofSecs (Scalar.floor (t + source.gap config g)))
    (hrest : Draws source config nodes (t + source.gap config g) (number + 1)
      (source.afterRequest config nodes g) rest g') :
    Draws source config nodes t number g
      (config.request number (source.trip nodes (source.afterGap config g))
        (Time.ofSecs (Scalar.floor (t + source.gap config g))) :: rest) g'

variable {source : DrawSource R G} {config : DemandConfig R} {nodes number bound : Nat} {t : R}
  {g g' : G} {requests done : List Request}

/-- The bound to the number of requests is all that the unbounded loop lacks. -/
theorem requestsAfter_eq_some_iff :
    source.requestsAfter config nodes bound t number done g = some (requests, g') ↔
      ∃ rest, source.Draws config nodes t number g rest g' ∧ rest.length < bound ∧
        requests = done.reverse ++ rest := by
  induction bound generalizing t number g done with
  | zero => simp [requestsAfter]
  | succ bound ih =>
    change (if config.finish ≤ Time.ofSecs (Scalar.floor (t + source.gap config g)) then
      some (done.reverse, source.afterGap config g)
      else source.requestsAfter config nodes bound (t + source.gap config g) (number + 1)
        (config.request number (source.trip nodes (source.afterGap config g))
          (Time.ofSecs (Scalar.floor (t + source.gap config g))) :: done)
        (source.afterRequest config nodes g)) = _ ↔ _
    split
    next hover =>
      constructor
      · intro heq
        simp only [Option.some.injEq, Prod.mk.injEq] at heq
        obtain ⟨rfl, rfl⟩ := heq
        exact ⟨[], .late hover, Nat.zero_lt_succ _, (List.append_nil _).symm⟩
      · rintro ⟨rest, hdraws, -, rfl⟩
        cases hdraws with
        | late => simp
        | another hahead => exact (hahead hover).elim
    next hahead =>
      rw [ih]
      constructor
      · rintro ⟨rest, hdraws, hlength, rfl⟩
        exact ⟨_ :: rest, .another hahead hdraws, Nat.succ_lt_succ hlength, by simp⟩
      · rintro ⟨rest, hdraws, hlength, rfl⟩
        cases hdraws with
        | late hover => exact (hahead hover).elim
        | another _ hrest => exact ⟨_, hrest, Nat.lt_of_succ_lt_succ hlength, by simp⟩

/-- Demand is generated for two or more nodes exactly if the loop ends before the identifiers do. -/
theorem generate_eq_some_iff (hnodes : 2 ≤ nodes) :
    source.generate config nodes g = some (requests, g') ↔
      source.Draws config nodes (Scalar.ofNat config.start.secs) 0 g requests g' ∧
        requests.length < requestLimit := by
  rw [generate, if_neg (by omega), requestsAfter_eq_some_iff]
  simp

end DrawSource

/-! ## Times -/

/-- Whole seconds are what they are, and a time does not go back when something that is not negative
is added. -/
class Scalar.KeepsTime (R : Type) [Scalar R] : Prop where
  floor_ofNat : ∀ n ≤ wordLimit, Scalar.floor (Scalar.ofNat n : R) = n
  floor_le_floor_add : ∀ t gap : R, 0 ≤ gap → Scalar.floor t ≤ Scalar.floor (t + gap)

instance : Scalar.KeepsTime Rat where
  floor_ofNat n hn := by
    change min (n : Rat).floor.toNat wordLimit = n
    rw [← Int.cast_natCast (R := Rat), Rat.floor_intCast, Int.toNat_natCast, Nat.min_eq_left hn]
  floor_le_floor_add t gap hgap := by
    have hle : t ≤ t + gap := le_add_of_nonneg_right hgap
    have hfloor : t.floor ≤ (t + gap).floor := Rat.floor_monotone hle
    change min t.floor.toNat wordLimit ≤ min (t + gap).floor.toNat wordLimit
    omega

namespace DrawSource.Draws

variable {R G : Type} [Scalar R] {source : DrawSource R G} {config : DemandConfig R}
  {nodes number : Nat} {t : R} {g g' : G} {requests : List Request}

/-- Each request has its number in the sequence, and a trip and a time from draws of its own. -/
theorem eq_request (h : source.Draws config nodes t number g requests g') {i : Nat}
    {request : Request} (hi : requests[i]? = some request) :
    request = config.request (number + i)
        (source.trip nodes (source.afterGap config ((source.afterRequest config nodes)^[i] g)))
        (Time.ofSecs (Scalar.floor (source.timeAt config nodes t g i))) ∧
      request.submitted < config.finish := by
  induction h generalizing i with
  | late => simp at hi
  | another hahead hrest ih =>
    cases i with
    | zero =>
      obtain rfl : _ = request := by simpa using hi
      exact ⟨rfl, Nat.lt_of_not_le hahead⟩
    | succ i =>
      obtain ⟨heq, hlt⟩ := ih (by simpa using hi)
      refine ⟨?_, hlt⟩
      rw [heq, Nat.add_assoc, Nat.add_comm 1]
      rfl

variable [Scalar.KeepsTime R]

/-- What is submitted within the time of demand is submitted in the second to which the gaps add up,
and that is not before the last gap. -/
theorem floor_le_submitted (hgap : 0 ≤ source.gap config g)
    (hahead : ¬config.finish ≤ Time.ofSecs (Scalar.floor (t + source.gap config g))) :
    Scalar.floor t ≤ Scalar.floor (t + source.gap config g) ∧
      (Time.ofSecs (Scalar.floor (t + source.gap config g))).secs =
        Scalar.floor (t + source.gap config g) := by
  have hfinish := config.finish.secs_le
  refine ⟨Scalar.KeepsTime.floor_le_floor_add t _ hgap, ?_⟩
  simp only [Time.le_iff, Time.ofSecs] at hahead ⊢
  omega

/-- No request is submitted before the draws begin. -/
theorem floor_le (h : source.Draws config nodes t number g requests g')
    (hgap : ∀ g, 0 ≤ source.gap config g) :
    ∀ request ∈ requests, Scalar.floor t ≤ request.submitted.secs := by
  induction h with
  | late => simp
  | @another t number g _ rest hahead hrest ih =>
    obtain ⟨hlater, hexact⟩ := floor_le_submitted (t := t) (hgap g) hahead
    refine List.forall_mem_cons.mpr ⟨hlater.trans hexact.ge, fun request hrequest => ?_⟩
    exact hlater.trans (ih request hrequest)

/-- No request is submitted before the one that is drawn before it. -/
theorem pairwise_submitted (h : source.Draws config nodes t number g requests g')
    (hgap : ∀ g, 0 ≤ source.gap config g) :
    requests.Pairwise fun a b => a.submitted ≤ b.submitted := by
  induction h with
  | late => exact List.Pairwise.nil
  | @another t number g _ rest hahead hrest ih =>
    refine List.pairwise_cons.mpr ⟨fun request hrequest => ?_, ih⟩
    obtain ⟨-, hexact⟩ := floor_le_submitted (t := t) (hgap g) hahead
    exact hexact.le.trans (hrest.floor_le hgap request hrequest)

end DrawSource.Draws

/-! ## Generated demand -/

/-- The windows of all requests close while there are instants. -/
def DemandConfig.InRange {R : Type} (config : DemandConfig R) : Prop :=
  ∀ t < config.finish, ∀ lead ∈ config.leadSecs, t.secs + lead + config.windowSecs ≤ wordLimit

/-- What the request with a number is to be like. -/
structure Request.FollowsFrom {R : Type} (request : Request) (config : DemandConfig R)
    (network : Network R) (number : Nat) : Prop where
  id : request.id = ⟨number⟩
  /-- Nobody travels twice. -/
  passenger : request.passenger = ⟨number⟩
  start : config.start ≤ request.submitted
  finish : request.submitted < config.finish
  origin : network.contains request.origin
  destination : network.contains request.destination
  apart : request.origin ≠ request.destination
  /-- The window opens so long after the submission, and stays open so long. -/
  window : request.window.map (fun window => (window.earliest.secs, window.latest.secs)) =
    config.leadSecs.map fun lead =>
      (request.submitted.secs + lead, request.submitted.secs + lead + config.windowSecs)

/-- A window that lies within the range of times is as long as configured. -/
theorem DemandConfig.request_window {R : Type} {config : DemandConfig R} (h : config.InRange)
    {number : Nat} {ends : NodeId × NodeId} {submitted : Time}
    (hsubmitted : submitted < config.finish) :
    (config.request number ends submitted).window.map
        (fun window => (window.earliest.secs, window.latest.secs)) =
      config.leadSecs.map fun lead =>
        (submitted.secs + lead, submitted.secs + lead + config.windowSecs) := by
  unfold request
  cases hlead : config.leadSecs with
  | none => rfl
  | some lead =>
    have hfits := h submitted hsubmitted lead hlead
    simp only [Option.map_some, Time.secs_offset, Option.some.injEq, Prod.mk.injEq]
    omega

/-- Requests are generated as they are announced. Whatever is drawn, as long as no gap is negative
and every number is below its bound, each request is numbered and timed as it should be, joins two
existing nodes and has its window; the requests come in the order of submission; and their trips
come from the numbers drawn without any trip being preferred or left out. -/
theorem DrawSource.generate_wellFormed {R G : Type} [Scalar R] [Scalar.KeepsTime R]
    {source : DrawSource R G} {config : DemandConfig R} {network : Network R} {g g' : G}
    {requests : List Request} (hgap : ∀ g, 0 ≤ source.gap config g) (hbelow : source.StaysBelow)
    (hrange : config.InRange)
    (h : source.generate config network.nodeCount g = some (requests, g')) :
    let nodes := network.nodeCount
    (∀ (i : Nat) (request : Request), requests[i]? = some request →
      request.FollowsFrom config network i ∧
      (request.origin, request.destination) =
        source.trip nodes (source.afterGap config ((source.afterRequest config nodes)^[i] g))) ∧
      (requests.Pairwise fun a b => a.submitted ≤ b.submitted) ∧
      Set.BijOn (fun numbers : Nat × Nat => tripEnds numbers.1 numbers.2)
        {numbers | numbers.1 < nodes ∧ numbers.2 < nodes - 1}
        {ends | network.contains ends.1 ∧ network.contains ends.2 ∧ ends.1 ≠ ends.2} := by
  intro nodes
  have htrips := tripEnds_bijOn nodes
  simp only [Network.contains, decide_eq_true_eq]
  by_cases hnodes : 2 ≤ nodes
  · obtain ⟨hdraws, -⟩ := (generate_eq_some_iff hnodes).mp h
    refine ⟨fun i request hi => ?_, hdraws.pairwise_submitted hgap, htrips⟩
    obtain ⟨heq, hfinish⟩ := hdraws.eq_request hi
    have hstart := hdraws.floor_le hgap request (List.mem_of_getElem? hi)
    rw [Scalar.KeepsTime.floor_ofNat _ config.start.secs_le] at hstart
    rw [Nat.zero_add] at heq
    subst heq
    obtain ⟨horigin, hdestination, hapart⟩ := hbelow.trip hnodes
      (source.afterGap config ((source.afterRequest config nodes)^[i] g))
    exact ⟨⟨rfl, rfl, hstart, hfinish, decide_eq_true horigin, decide_eq_true hdestination, hapart,
      DemandConfig.request_window hrange hfinish⟩, rfl⟩
  · rw [generate, if_pos (by omega)] at h
    obtain ⟨rfl, -⟩ : [] = requests ∧ g = g' := by simpa using h
    exact ⟨by simp, List.Pairwise.nil, htrips⟩

/-- Gaps are none, one and a half, one or one half of the mean in turn, and numbers go up from one
draw to the next. -/
def DrawSource.inTurn : DrawSource Rat Nat where
  exponential g mean := (mean * ((g % 4 : Nat) : Rat) / 2, g + 1)
  below g bound := (g % bound, g + 1)

/-- Five minutes of demand, booked five minutes ahead. -/
def DemandConfig.ahead : DemandConfig Rat where
  meanGap := 60
  leadSecs := some 300
  start := .ofSecs 100
  finish := .ofSecs 400

open DrawSource in
/-- Six requests are made, some of them in the same second. -/
theorem DrawSource.generate_wellFormed_inTurn :
    let network : Network Rat := ⟨Array.replicate 3 default, #[], _, by simp, rfl⟩
    (∀ g, 0 ≤ inTurn.gap .ahead g) ∧ inTurn.StaysBelow ∧ DemandConfig.ahead.InRange ∧
      ∃ requests g', inTurn.generate .ahead network.nodeCount 0 = some (requests, g') ∧
        requests.map (fun request => request.submitted.secs) = [100, 190, 250, 280, 280, 370] ∧
        ∀ (i : Nat) (request : Request), requests[i]? = some request →
          request.FollowsFrom .ahead network i := by
  intro network
  have hgap : ∀ g, 0 ≤ inTurn.gap .ahead g := fun g => by
    change (0 : Rat) ≤ 60 * ((g % 4 : Nat) : Rat) / 2
    positivity
  have hbelow : inTurn.StaysBelow := fun g bound hbound => Nat.mod_lt g hbound
  have hrange : DemandConfig.ahead.InRange := fun t ht lead hlead => by
    obtain rfl : 300 = lead := by simpa [DemandConfig.ahead] using hlead
    replace ht : t.secs < 400 := ht
    change t.secs + 300 + 600 ≤ wordLimit
    unfold wordLimit
    omega
  have htimes : (inTurn.generate .ahead 3 0).map
      (fun result => result.1.map fun request => request.submitted.secs) =
        some [100, 190, 250, 280, 280, 370] := by
    decide +kernel
  obtain ⟨⟨requests, g'⟩, hresult, hsubmitted⟩ := Option.map_eq_some_iff.mp htimes
  have hgenerate : inTurn.generate .ahead network.nodeCount 0 = some (requests, g') := hresult
  obtain ⟨hrequests, -, -⟩ := generate_wellFormed hgap hbelow hrange hgenerate
  exact ⟨hgap, hbelow, hrange, requests, g', hgenerate, hsubmitted,
    fun i request hi => (hrequests i request hi).1⟩

end DemandTransport
