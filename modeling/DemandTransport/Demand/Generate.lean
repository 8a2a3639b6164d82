import DemandTransport.Demand.Request
import DemandTransport.Random

/-!
# Random demand

Requests arrive with exponentially distributed gaps, each from a random node to a random other node.
Where the randomness comes from is left open: `DrawSource` says what is drawn, and a seeded
generator is one source of it.
-/

namespace DemandTransport

/-- A source of random draws with a state of type `G`. -/
structure DrawSource (R G : Type) where
  /-- Draw from the exponential distribution with a mean. -/
  exponential : G → R → R × G
  /-- Draw a number below a bound. -/
  below : G → Nat → Nat × G

/-- The draws of a seeded generator. -/
def Generator.source : DrawSource Float Generator where
  exponential := Generator.exponential
  below := Generator.below32

/-- What random demand is like. -/
structure DemandConfig (R : Type) where
  /-- Mean seconds between two submissions. -/
  meanGap : R
  /-- Seconds from the submission until the window for the pickup opens; without it, requests have
  no window. -/
  leadSecs : Option Nat := none
  /-- Seconds for which the window stays open. -/
  windowSecs : Nat := 600
  /-- Demand begins here. -/
  start : Time := .zero
  /-- Demand ends here; this instant does not belong to it. -/
  finish : Time := .ofSecs 3600
  deriving Repr

/-- The usual demand: a request a minute for an hour. -/
def DemandConfig.usual {R : Type} [Scalar R] : DemandConfig R := { meanGap := 60.0 }

/-- The ends of a trip from a number below the count of nodes and one below that count less one: the
second number skips the origin. -/
def tripEnds (first second : Nat) : NodeId × NodeId :=
  (⟨first⟩, ⟨if first ≤ second then second + 1 else second⟩)

/-- The request with a number, submitted at a time. -/
def DemandConfig.request {R : Type} (config : DemandConfig R) (number : Nat)
    (ends : NodeId × NodeId) (submitted : Time) : Request :=
  { id := ⟨number⟩
    passenger := ⟨number⟩
    origin := ends.1
    destination := ends.2
    submitted := submitted
    window := config.leadSecs.map fun lead =>
      ⟨submitted.offset lead, (submitted.offset lead).offset config.windowSecs⟩ }

variable {R G : Type} [Scalar R]

/-- Draw requests after time `t` until one would be submitted at the end of demand or later. They
are numbered from `number` on, and the ones drawn so far come last one first. Nothing is returned
when more requests than the first argument allows would be needed. -/
def DrawSource.requestsAfter (source : DrawSource R G) (config : DemandConfig R) (nodes : Nat) :
    Nat → R → Nat → List Request → G → Option (List Request × G)
  | 0, _, _, _, _ => none
  | more + 1, t, number, done, g =>
    let (gap, g) := source.exponential g config.meanGap
    let t := t + gap
    let submitted := Time.ofSecs (Scalar.floor t)
    if config.finish ≤ submitted then some (done.reverse, g)
    else
      let (first, g) := source.below g nodes
      let (second, g) := source.below g (nodes - 1)
      let request := config.request number (tripEnds first second) submitted
      source.requestsAfter config nodes more t (number + 1) (request :: done) g

/-- More requests than this have no identifiers. -/
def requestLimit : Nat := 0x100000000

/-- All requests between the begin and the end of demand in the order of submission, and the state
of the source behind them. A network of fewer than two nodes has no trips. -/
def DrawSource.generate (source : DrawSource R G) (config : DemandConfig R) (nodes : Nat) (g : G) :
    Option (List Request × G) :=
  if nodes < 2 then some ([], g)
  else source.requestsAfter config nodes requestLimit (Scalar.ofNat config.start.secs) 0 [] g

end DemandTransport
