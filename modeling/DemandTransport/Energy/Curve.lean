import DemandTransport.Energy.Error
import DemandTransport.Scalar

/-!
# Charging curves

How fast a battery takes charge depends on how full it is. A curve gives the rate, as a share of
the capacity per hour, at four states of charge and is straight between them: a ramp, a plateau and
a taper.
-/

namespace DemandTransport

/-- A calibration point of a curve. -/
structure CurvePoint (R : Type) where
  /-- State of charge as a share of the capacity. -/
  soc : R
  /-- Charging rate as a share of the capacity per hour. -/
  rate : R
  deriving BEq, DecidableEq, Repr

/-- A charging curve through four points. -/
structure Curve (R : Type) where
  /-- The name by which vehicles refer to the curve. -/
  name : String
  /-- The battery is empty. -/
  empty : CurvePoint R
  /-- The plateau begins. -/
  plateau : CurvePoint R
  /-- The taper begins. -/
  taper : CurvePoint R
  /-- The battery is full. -/
  full : CurvePoint R
  deriving BEq, DecidableEq, Repr

namespace Curve

variable {R : Type} [Scalar R]

/-- The four points in the order of their states of charge. -/
def points (curve : Curve R) : List (CurvePoint R) :=
  [curve.empty, curve.plateau, curve.taper, curve.full]

/-- The three segments by their ends. -/
def segments (curve : Curve R) : List (CurvePoint R × CurvePoint R) :=
  [(curve.empty, curve.plateau), (curve.plateau, curve.taper), (curve.taper, curve.full)]

/-- What is wrong with a curve, if anything is. -/
def fault? (curve : Curve R) : Option (CurveFault R) :=
  if curve.points.any fun p => !Scalar.isFinite p.soc || !Scalar.isFinite p.rate then
    some .nonFinite
  else if curve.empty.soc != 0 || curve.full.soc != 1 then
    some (.span curve.empty.soc curve.full.soc)
  else if curve.segments.any fun (a, b) => b.soc < a.soc then some .unordered
  else if curve.points.any fun p => p.rate < 0 then some .negativeRate
  else if curve.empty.rate ≤ 0 ∨ curve.full.rate ≤ 0 then some .deadEnd
  else if curve.segments.any fun (a, b) => a.rate == 0 && b.rate == 0 && a.soc < b.soc then
    some .deadSegment
  else none

/-- The curve through four points, provided that a battery can be charged along it. -/
def make (name : String) (empty plateau taper full : CurvePoint R) :
    Except (EnergyError R) (Curve R) :=
  let curve : Curve R := ⟨name, empty, plateau, taper, full⟩
  match curve.fault? with
  | some fault => .error (.invalidCurve name fault)
  | none => .ok curve

/-- A fast ramp to a plateau up to half charge, and a long taper. -/
def tesla : Curve R := ⟨"tesla", ⟨0.0, 0.75⟩, ⟨0.15, 1.5⟩, ⟨0.5, 1.5⟩, ⟨1.0, 0.05⟩⟩

/-- A higher plateau from a tenth up to three fifths of the charge. -/
def nissanLeaf : Curve R := ⟨"nissan_leaf", ⟨0.0, 0.75⟩, ⟨0.1, 1.75⟩, ⟨0.6, 1.75⟩, ⟨1.0, 0.05⟩⟩

/-- The rate at a state of charge, which is moved into `[0, 1]`. -/
def rateAt (curve : Curve R) (soc : R) : R :=
  let s := Scalar.clamp soc 0 1
  match curve.segments.find? fun (_, b) => s ≤ b.soc with
  | some (a, b) =>
    if b.soc ≤ a.soc then b.rate
    else a.rate + (b.rate - a.rate) * (s - a.soc) / (b.soc - a.soc)
  | none => curve.full.rate

end Curve

/-- Curves by name, in the order of their names. -/
structure CurveTable (R : Type) where
  /-- The curves, ordered by name and no two of one name. -/
  curves : List (Curve R)

namespace CurveTable

variable {R : Type} [Scalar R]

/-- Put a curve in its place in a list ordered by name, where it replaces one of the same name. -/
def place (curve : Curve R) : List (Curve R) → List (Curve R)
  | [] => [curve]
  | c :: rest =>
    if curve.name < c.name then curve :: c :: rest
    else if curve.name = c.name then curve :: rest
    else c :: place curve rest

/-- Add a curve, or replace the one of its name. -/
def insert (table : CurveTable R) (curve : Curve R) : CurveTable R := ⟨place curve table.curves⟩

/-- The curves that every table starts with. -/
def presets : CurveTable R := (CurveTable.mk []).insert Curve.tesla |>.insert Curve.nissanLeaf

/-- The curve with a name. -/
def get (table : CurveTable R) (name : String) : Except (EnergyError R) (Curve R) :=
  match table.curves.find? (·.name == name) with
  | some curve => .ok curve
  | none => .error (.unknownCurve name)

/-- All names in ascending order. -/
def names (table : CurveTable R) : List String := table.curves.map Curve.name

end CurveTable

end DemandTransport
