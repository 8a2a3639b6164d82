import DemandTransport.Decimal.Fixed

/-!
# Places on the earth

Nodes and charger sites are given by latitude and longitude in single precision, about a metre at
the equator. Distances are great-circle distances on a sphere of the mean radius of the earth.
-/

namespace DemandTransport

/-- Latitude and longitude in degrees. -/
structure GeoPoint where
  /-- Degrees north. -/
  lat : Float32
  /-- Degrees east. -/
  lon : Float32
  deriving Repr, Inhabited

namespace GeoPoint

/-- The smaller of two single-precision numbers, and the defined one when one is undefined. -/
def lesser32 (a b : Float32) : Float32 := if a ≤ b then a else if b == b then b else a

/-- An angle in degrees as an angle in radians. -/
def radians (degrees : Float32) : Float32 := degrees * 0.017453292519943295

/-- The mean radius of the earth in metres. -/
def earthRadius : Float32 := 6371000.0

/-- Great-circle distance in metres, by the haversine of the central angle. -/
def distance (p q : GeoPoint) : Float32 :=
  let latP := radians p.lat
  let latQ := radians q.lat
  let halfLat := radians (q.lat - p.lat) * 0.5
  let halfLon := radians (q.lon - p.lon) * 0.5
  let haversine := halfLat.sin * halfLat.sin +
    latP.cos * latQ.cos * (halfLon.sin * halfLon.sin)
  2.0 * earthRadius * (lesser32 haversine.sqrt 1.0).asin

/-- Squared distance on the plane of latitude and longitude, which orders the nodes near a place. -/
def planarSquare (p q : GeoPoint) : Float32 :=
  let lat := p.lat - q.lat
  let lon := p.lon - q.lon
  lat * lat + lon * lon

/-- Latitude and longitude to five places. -/
def text (p : GeoPoint) : String :=
  "(" ++ Decimal.fixed32 5 p.lat ++ ", " ++ Decimal.fixed32 5 p.lon ++ ")"

end GeoPoint

end DemandTransport
