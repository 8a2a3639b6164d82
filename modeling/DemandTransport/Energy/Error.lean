import DemandTransport.Decimal.Shortest
import DemandTransport.Network.Basic
import DemandTransport.Text.Quoted
import DemandTransport.Text.Table

/-!
# What can be wrong with energy data

Curves, batteries and chargers are checked when they are made. Each cause is a value of its own; its
wording is a function of it.
-/

namespace DemandTransport

/-- Why four calibration points make no charging curve. -/
inductive CurveFault (R : Type) where
  /-- A coordinate is infinite or undefined. -/
  | nonFinite
  /-- The curve does not reach from empty to full. -/
  | span (first last : R)
  /-- A state of charge is below the one before it. -/
  | unordered
  /-- A rate is negative. -/
  | negativeRate
  /-- The battery takes no charge when it is empty or when it is full. -/
  | deadEnd
  /-- The battery takes no charge all along a segment. -/
  | deadSegment
  deriving DecidableEq, Repr

/-- Why a capacity and a state of charge make no battery. -/
inductive BatteryFault (R : Type) where
  /-- The capacity is not a positive finite amount. -/
  | capacity (kwh : R)
  /-- The state of charge is not between empty and full. -/
  | charge (kwh full : R)
  deriving DecidableEq, Repr

/-- Why a specification makes no charger. -/
inductive ChargerFault (R : Type) where
  /-- The rated power is not a positive finite one. -/
  | power (kw : R)
  /-- No vehicle can plug in. -/
  | noPlugs
  deriving DecidableEq, Repr

/-- What can be wrong with batteries, curves and chargers. -/
inductive EnergyError (R : Type) where
  | invalidCurve (name : String) (fault : CurveFault R)
  | unknownCurve (name : String)
  | invalidBattery (fault : BatteryFault R)
  | invalidCharger (charger : ChargerId) (fault : ChargerFault R)
  | duplicateCharger (charger : ChargerId)
  | chargerNotFound (charger : ChargerId)
  /-- All plugs are taken by other vehicles. -/
  | chargerFull (charger : ChargerId) (vehicle : VehicleId) (plugs : Nat)
  | network (cause : NetworkError)
  /-- A file cannot be read, for the given reason. -/
  | unreadable (reason : String)
  | table (fault : Table.TableFault)
  /-- A row of a charger table gives neither a node nor a place. -/
  | nowhere (charger : Nat)
  deriving Repr

/-- The wording of a curve fault. -/
def CurveFault.message : CurveFault Float → String
  | .nonFinite => "non-finite calibration point"
  | .span first last =>
    "curve must span SoC 0..1, got " ++ Decimal.shortest first ++ ".." ++ Decimal.shortest last
  | .unordered => "SoC of calibration points must be non-decreasing"
  | .negativeRate => "negative charging rate"
  | .deadEnd => "first and last rates must be positive"
  | .deadSegment => "a segment with zero rate at both ends can never be charged through"

/-- The wording of a battery fault. -/
def BatteryFault.message : BatteryFault Float → String
  | .capacity kwh => "capacity must be positive, got " ++ Decimal.shortest kwh ++ " kWh"
  | .charge kwh full =>
    "state of charge " ++ Decimal.shortest kwh ++ " kWh outside [0, " ++
      Decimal.shortest full ++ "]"

/-- The wording of a charger fault. -/
def ChargerFault.message : ChargerFault Float → String
  | .power kw => "rated power must be positive, got " ++ Decimal.shortest kw ++ " kW"
  | .noPlugs => "no plugs"

/-- The wording of an energy error. -/
def EnergyError.message : EnergyError Float → String
  | .invalidCurve name fault => "invalid charging curve: " ++ name ++ ": " ++ fault.message
  | .unknownCurve name => "unknown charging curve " ++ Text.quoted name
  | .invalidBattery fault => "invalid battery: " ++ fault.message
  | .invalidCharger charger fault => "invalid charger " ++ charger.text ++ ": " ++ fault.message
  | .duplicateCharger charger => "charger " ++ charger.text ++ " defined twice"
  | .chargerNotFound charger => "charger " ++ charger.text ++ " not found"
  | .chargerFull charger vehicle plugs =>
    "charger " ++ charger.text ++ " has all " ++ Decimal.ofNat plugs ++ " plug(s) occupied, " ++
      vehicle.text ++ " cannot plug in"
  | .network cause => "spatial error: " ++ cause.message
  | .unreadable reason => "I/O error: " ++ reason
  | .table fault => "parse error: " ++ fault.message
  | .nowhere charger =>
    "parse error: charger " ++ Decimal.ofNat charger ++ ": neither node nor lat/lon given"

end DemandTransport
