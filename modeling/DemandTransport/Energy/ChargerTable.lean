import DemandTransport.Energy.Chargers
import DemandTransport.Text.Table

/-!
# Tables of chargers

A row names a charger, its site, its rated power and its plugs. The site is a node, or latitude and
longitude; a node wins when both are given.
-/

namespace DemandTransport.ChargerTable

open Table

/-- The columns of a charger table. -/
abbrev columns : List Column :=
  [required "charger_id" (.count 0xffffffff), possible "node" (.count 0xffffffff),
    possible "lat" .single, possible "lon" .single, required "power_kw" .double,
    required "plugs" (.count 0xffffffff)]

/-- The specification in a row. -/
def ofRow : Row columns → Except (EnergyError Float) (ChargerSpec Float)
  | (charger, some node, _, _, power, plugs, ()) => .ok ⟨⟨charger⟩, .node ⟨node⟩, power, plugs⟩
  | (charger, none, some lat, some lon, power, plugs, ()) =>
    .ok ⟨⟨charger⟩, .place ⟨lat, lon⟩, power, plugs⟩
  | (charger, _) => .error (.nowhere charger)

/-- The specifications in a charger table. -/
def read (source : String) : Except (EnergyError Float) (List (ChargerSpec Float)) :=
  (rows columns source).mapM fun row => do ofRow (← row.mapError .table)

/-- The specifications in a file, whose content is a text or the reason why it cannot be read. -/
def ofFile (content : Except String String) :
    Except (EnergyError Float) (List (ChargerSpec Float)) :=
  (content.mapError .unreadable).bind read

end DemandTransport.ChargerTable
