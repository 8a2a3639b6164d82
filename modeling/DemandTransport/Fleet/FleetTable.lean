import DemandTransport.Fleet.Basic

/-!
# Tables of vehicles

A row gives a vehicle with its horizon and its seats. A row with a battery is an electric vehicle:
it also has to give the share to which the battery is charged and the name of its charging curve,
and it may give a consumption of its own.
-/

namespace DemandTransport.FleetTable

open Table

/-- The columns of a fleet table. -/
abbrev columns : List Column :=
  [required "vehicle_id" (.count 0xffffffff), required "start_node" (.count 0xffffffff),
    required "start_time" (.count wordLimit), required "end_time" (.count wordLimit),
    required "capacity" (.count 0xffffffff), possible "battery_kwh" .double,
    possible "initial_soc" .double, possible "curve" .text, possible "kwh_per_km" .double,
    possible "aux_kw" .double]

/-- Model and charge of the electric vehicle in a row. -/
def energy (curves : CurveTable Float) (id : VehicleId) (capacity : Float) (soc : Option Float)
    (curve : Option String) (kwhPerKm auxKw : Option Float) :
    Except (FleetError Float) (EnergyProfile Float × Float) :=
  match soc, curve with
  | none, _ => .error (.invalidVehicle id (.missing "initial_soc"))
  | some _, none => .error (.invalidVehicle id (.missing "curve"))
  | some soc, some name =>
    if ¬(0.0 ≤ soc ∧ soc ≤ 1.0) then .error (.invalidVehicle id (.share soc))
    else
      match curves.get name with
      | .error cause => .error (.energy cause)
      | .ok curve =>
        let usual := EnergyProfile.make capacity curve
        let profile :=
          usual.withConsumption (kwhPerKm.getD usual.kwhPerKm) (auxKw.getD usual.auxKw)
        .ok (profile, soc * capacity)

/-- The vehicle in a row. -/
def ofRow (curves : CurveTable Float) : Row columns → Except (FleetError Float) (Vehicle Float)
  | (id, node, start, finish, seats, none, _) =>
    Vehicle.conventional ⟨id⟩ ⟨node⟩ (.ofSecs start) (.ofSecs finish) seats
  | (id, node, start, finish, seats, some capacity, soc, curve, kwhPerKm, auxKw, ()) => do
    let (profile, charge) ← energy curves ⟨id⟩ capacity soc curve kwhPerKm auxKw
    Vehicle.electric ⟨id⟩ ⟨node⟩ (.ofSecs start) (.ofSecs finish) seats profile charge

/-- The fleet in a table, with curves found by name. -/
def read (curves : CurveTable Float) (source : String) :
    Except (FleetError Float) (Fleet Float) := do
  let vehicles ← (rows columns source).mapM fun row => do
    ofRow curves (← row.mapError .table)
  Fleet.ofVehicles vehicles

/-- The fleet in a file, whose content is a text or the reason why it cannot be read. -/
def ofFile (curves : CurveTable Float) (content : Except String String) :
    Except (FleetError Float) (Fleet Float) :=
  (content.mapError .unreadable).bind (read curves)

end DemandTransport.FleetTable
