import DemandTransport.Scalar

/-!
# A seeded random generator

Equal seeds give equal draws. The state is four 64-bit words; each draw combines them by additions
and rotations and then moves the state on linearly. A generator can split off children whose draws
do not shift its own.
-/

namespace DemandTransport

/-- The state of a random generator. -/
structure Generator where
  /-- First word of the state. -/
  s0 : UInt64
  /-- Second word of the state. -/
  s1 : UInt64
  /-- Third word of the state. -/
  s2 : UInt64
  /-- Fourth word of the state. -/
  s3 : UInt64
  deriving DecidableEq, Repr, Inhabited

namespace Generator

/-- A word with its bits moved up by `n` places, the upper ones coming in below. -/
def rotateLeft (x : UInt64) (n : UInt64) : UInt64 := (x <<< n) ||| (x >>> (64 - n))

/-- One step of the congruential sequence from which seeds are spread: the next term and a 32-bit
word of output. -/
def spread (term : UInt64) : UInt64 × UInt64 :=
  let next := term * 6364136223846793005 + 11634580027462260723
  let word := (((next >>> 18) ^^^ next) >>> 27) &&& 0xffffffff
  let turn := next >>> 59
  let rotated := (word >>> turn) ||| (word <<< ((32 - turn) % 32))
  (next, rotated &&& 0xffffffff)

/-- Two words of the spread sequence as one 64-bit word, the first one below. -/
def spreadWord (term : UInt64) : UInt64 × UInt64 :=
  let (term, low) := spread term
  let (term, high) := spread term
  (term, low ||| (high <<< 32))

/-- The generator of a seed. -/
def ofSeed (seed : UInt64) : Generator :=
  let (term, s0) := spreadWord seed
  let (term, s1) := spreadWord term
  let (term, s2) := spreadWord term
  let (_, s3) := spreadWord term
  ⟨s0, s1, s2, s3⟩

/-- Draw a 64-bit word. -/
def next64 (g : Generator) : UInt64 × Generator :=
  let out := rotateLeft (g.s0 + g.s3) 23 + g.s0
  let s2 := g.s2 ^^^ g.s0
  let s3 := g.s3 ^^^ g.s1
  (out, ⟨g.s0 ^^^ s3, g.s1 ^^^ s2, s2 ^^^ (g.s1 <<< 17), rotateLeft s3 45⟩)

/-- Draw a 32-bit word: the upper half of a 64-bit one. -/
def next32 (g : Generator) : UInt64 × Generator :=
  let (x, g) := g.next64
  (x >>> 32, g)

/-- Draw a number in `[0, 1)` with 53 random bits. -/
def nextFloat (g : Generator) : Float × Generator :=
  let (x, g) := g.next64
  ((x >>> 11).toFloat * (1.0 / 9007199254740992.0), g)

/-- Draws after which a draw below a bound is accepted even if it favours small numbers. Each draw
is accepted with a chance of more than one half. -/
def drawLimit : Nat := 1000000

/-- Draw words of `width` bits with `draw` until the low half of the product with `count` shows
that the high half is uniform below `count`. -/
def drawBelow (width count : Nat) (draw : Generator → UInt64 × Generator) :
    Nat → Generator → Nat × Generator
  | 0, g => (0, g)
  | tries + 1, g =>
    let zone := count * Nat.pow 2 (width - 1 - count.log2) - 1
    let (x, g) := draw g
    let product := x.toNat * count
    if product % Nat.pow 2 width ≤ zone then (product / Nat.pow 2 width, g)
    else drawBelow width count draw tries g

/-- Draw a number below `count`, at most `2 ^ 32`, from 32-bit words. -/
def below32 (g : Generator) (count : Nat) : Nat × Generator :=
  if count = 0x100000000 then
    let (x, g) := g.next32
    (x.toNat, g)
  else drawBelow 32 count next32 drawLimit g

/-- Draw a number below `count`, at most `2 ^ 64`, from 64-bit words. -/
def below64 (g : Generator) (count : Nat) : Nat × Generator :=
  if count = 0x10000000000000000 then
    let (x, g) := g.next64
    (x.toNat, g)
  else drawBelow 64 count next64 drawLimit g

/-- Draw `true` with probability `p`, moved into `[0, 1]`. Certainty takes no draw. -/
def chance (g : Generator) (p : Float) : Bool × Generator :=
  let p := Scalar.clamp p 0.0 1.0
  if p == 1.0 then (true, g)
  else
    let (x, g) := g.next64
    (x < (p * 18446744073709551616.0).toUInt64, g)

/-- Draw from the exponential distribution with the given mean, by inversion. -/
def exponential (g : Generator) (mean : Float) : Float × Generator :=
  let (u, g) := g.nextFloat
  ((-mean) * (1.0 - u).log, g)

/-- The 64 bits of the golden ratio below one, which keep the seeds of children apart. -/
def childFactor : UInt64 := 0x9e3779b97f4a7c15

/-- Split off an independent generator for the part of a program that `offset` names. -/
def child (g : Generator) (offset : UInt64) : Generator × Generator :=
  let (x, g) := g.next64
  (ofSeed (x ^^^ offset * childFactor), g)

end Generator

end DemandTransport
