import DemandTransport.Energy.Battery
import DemandTransport.Energy.Curve

/-!
# Charging at a charger

A charger of rated power `P` cannot push more than `P / C` per hour into a battery of capacity `C`.
A curve limited in this way is again straight piece by piece: a segment that crosses the limit is
cut there, and the part above the limit becomes flat. Along one piece charging takes twice the
charge over the sum of the rates at its ends, and the state of charge after a given time is found by
solving that equation.
-/

namespace DemandTransport

/-- A straight piece of a limited curve. -/
structure Piece (R : Type) where
  /-- State of charge where the piece begins. -/
  fromSoc : R
  /-- Rate where the piece begins. -/
  fromRate : R
  /-- State of charge where the piece ends. -/
  toSoc : R
  /-- Rate where the piece ends. -/
  toRate : R
  deriving BEq, DecidableEq, Repr

namespace Piece

variable {R : Type} [Scalar R]

/-- A width that counts as none. -/
def negligible : R := 1e-12

/-- The rate at a state of charge, along the line of the piece. -/
def rateAt (p : Piece R) (s : R) : R :=
  if p.toSoc - p.fromSoc ≤ negligible then p.toRate
  else p.fromRate + (p.toRate - p.fromRate) * (s - p.fromSoc) / (p.toSoc - p.fromSoc)

/-- Change of rate per change of charge. -/
def slope (p : Piece R) : R := (p.toRate - p.fromRate) / (p.toSoc - p.fromSoc)

end Piece

/-- Seconds to charge a share of the capacity while the rate changes evenly between two values. -/
def trapezoidSecs {R : Type} [Scalar R] (share rateA rateB : R) : R :=
  if share ≤ 0 then 0 else 2.0 * 3600.0 * share / (rateA + rateB)

/-- A charging curve under the limit of a charger. -/
structure LimitedCurve (R : Type) where
  /-- The pieces in the order of their states of charge. -/
  pieces : List (Piece R)
  /-- Capacity of the battery in kWh. -/
  capacity : R
  deriving BEq, DecidableEq, Repr

namespace LimitedCurve

variable {R : Type} [Scalar R]

/-- The pieces of one segment under a limit: two when it crosses the limit, none when it has no
width. -/
def piecesOf (limit : R) (a b : CurvePoint R) : List (Piece R) :=
  if b.soc - a.soc ≤ Piece.negligible then []
  else if (a.rate - limit) * (b.rate - limit) < 0 then
    let cut := a.soc + (limit - a.rate) * (b.soc - a.soc) / (b.rate - a.rate)
    [⟨a.soc, Scalar.lesser a.rate limit, cut, limit⟩,
      ⟨cut, limit, b.soc, Scalar.lesser b.rate limit⟩]
  else [⟨a.soc, Scalar.lesser a.rate limit, b.soc, Scalar.lesser b.rate limit⟩]

/-- A curve for a battery of a capacity at a charger of a rated power. -/
def make (curve : Curve R) (capacity ratedKw : R) : LimitedCurve R :=
  let limit := ratedKw / capacity
  ⟨curve.segments.flatMap fun (a, b) => piecesOf limit a b, capacity⟩

/-- The rate at a state of charge, which is moved into `[0, 1]`. -/
def rateAt (limited : LimitedCurve R) (soc : R) : R :=
  let s := Scalar.clamp soc 0 1
  match (limited.pieces.find? fun p => s ≤ p.toSoc).or limited.pieces.getLast? with
  | some p => p.rateAt s
  | none => 0

/-- The power in kW at a state of charge. -/
def powerAt (limited : LimitedCurve R) (soc : R) : R := limited.rateAt soc * limited.capacity

/-- Seconds spent in one piece when charging between two states of charge, if it is touched. -/
def secsIn (lower upper : R) (p : Piece R) : Option R :=
  if p.toSoc ≤ lower ∨ upper ≤ p.fromSoc then none
  else
    let a := Scalar.greater lower p.fromSoc
    let b := Scalar.lesser upper p.toSoc
    some (trapezoidSecs (b - a) (p.rateAt a) (p.rateAt b))

/-- Seconds to charge from one state of charge to another, none if the battery is there already. -/
def timeBetween (limited : LimitedCurve R) (lower upper : R) : R :=
  let lower := Scalar.clamp lower 0 1
  let upper := Scalar.clamp upper 0 1
  if upper ≤ lower then 0
  else (limited.pieces.filterMap (secsIn lower upper)).foldl (· + ·) 0

/-- Time left that counts as none at the end of a piece, in seconds. -/
def slack : R := 1e-6

/-- The state of charge reached from `s` by charging `left` seconds along the given pieces. -/
def advanceAlong : List (Piece R) → R → R → R
  | [], s, _ => s
  | p :: rest, s, left =>
    if p.toSoc ≤ s then advanceAlong rest s left
    else if left ≤ 0 then s
    else
      let a := Scalar.greater s p.fromSoc
      let rate := p.rateAt a
      let whole := trapezoidSecs (p.toSoc - a) rate p.toRate
      if whole ≤ left + slack then advanceAlong rest p.toSoc (left - whole)
      else
        let gain := 2.0 * rate * left / (2.0 * 3600.0 - left * p.slope)
        advanceAlong rest (Scalar.lesser (a + gain) p.toSoc) 0

/-- The state of charge after `secs` seconds of charging, at most full. -/
def advance (limited : LimitedCurve R) (soc secs : R) : R :=
  Scalar.lesser
    (advanceAlong limited.pieces (Scalar.clamp soc 0 1) (Scalar.greater secs 0)) 1

end LimitedCurve

namespace Battery

variable {R : Type} [Scalar R]

/-- The power in kW that the battery draws at a charger. -/
def chargingPower (battery : Battery R) (curve : Curve R) (ratedKw : R) : R :=
  (LimitedCurve.make curve battery.capacity ratedKw).powerAt battery.share

/-- Seconds until the battery is charged to a share of its capacity. -/
def chargeTime (battery : Battery R) (curve : Curve R) (ratedKw target : R) : R :=
  (LimitedCurve.make curve battery.capacity ratedKw).timeBetween battery.share target

/-- Seconds until the battery is full. -/
def remainingChargeTime (battery : Battery R) (curve : Curve R) (ratedKw : R) : R :=
  battery.chargeTime curve ratedKw 1.0

/-- State of charge, as a share of the capacity, after a time at a charger. -/
def shareAfterCharging (battery : Battery R) (curve : Curve R) (ratedKw secs : R) : R :=
  (LimitedCurve.make curve battery.capacity ratedKw).advance battery.share secs

end Battery

end DemandTransport
