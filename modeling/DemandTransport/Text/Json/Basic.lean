import DemandTransport.Decimal.Read

/-!
# JSON values

Configuration is written in JSON. A number without point and exponent is kept as a whole number, so
that a count can be told from a measure; every other number is kept as it was written and rounded
only when it is used.

A text can be written in halves of code unit pairs. Halves that do not meet make no text, yet what
is written is well-formed, and does no harm where it is passed over.
-/

namespace DemandTransport

/-- A JSON value. -/
inductive Json where
  | null
  | bool (value : Bool)
  /-- A number without point and exponent, minus zero excepted. -/
  | whole (value : Int)
  /-- Any other number. -/
  | real (value : Decimal.Numeral)
  | text (value : String)
  | list (items : List Json)
  /-- The members in the order in which they were written. -/
  | object (members : List (String × Json))
  /-- A text that holds half of a pair of code units, or an object with such a text for a name. -/
  | halved
  deriving Repr, Inhabited

namespace Json

/-- The member of an object with a name, the first one if there are several. -/
def member? (name : String) : Json → Option Json
  | .object members => members.lookup name
  | _ => none

/-- The value of what is written between quotes, as far as that is a text. -/
def ofText : Option String → Json
  | some s => .text s
  | none => .halved

/-- The object with members whose names are texts. -/
def ofMembers (members : List (Option String × Json)) : Json :=
  match members.mapM fun (name, value) => name.map fun name => (name, value) with
  | some members => .object members
  | none => .halved

/-- A count of at most `limit`. Only a number without point and exponent is a count. -/
def count? (limit : Nat) : Json → Option Nat
  | .whole (.ofNat n) => if n ≤ limit then some n else none
  | _ => none

/-- A finite measure; a count is a measure too. -/
def measure? : Json → Option Float
  | .whole n =>
    let x := (⟨n < 0, n.natAbs, 0⟩ : Decimal.Numeral).toFloat
    if x.isFinite then some x else none
  | .real n => if n.toFloat.isFinite then some n.toFloat else none
  | _ => none

/-- A truth value. -/
def bool? : Json → Option Bool
  | .bool b => some b
  | _ => none

/-- A text. -/
def text? : Json → Option String
  | .text s => some s
  | _ => none

/-- The values given for the named fields of a record. A record is an object, whose other members
count for nothing and which gives no field twice, or a list of the first fields in order. -/
def fields? (names : List String) : Json → Option (List (Option Json))
  | .object members =>
    if names.all fun name => (members.filter (·.1 == name)).length ≤ 1 then
      some (names.map fun name => members.lookup name)
    else none
  | .list items =>
    if items.length ≤ names.length then
      some (items.map some ++ List.replicate (names.length - items.length) none)
    else none
  | _ => none

/-- The value of a field by `read`, or what the field is when it is not given. -/
def fieldOr {α : Type} (missing : α) (read : Json → Option α) : Option Json → Option α
  | none => some missing
  | some j => read j

/-- The reading of a field that may be null. -/
def nullable {α : Type} (read : Json → Option α) : Json → Option (Option α)
  | .null => some none
  | j => (read j).map some

end Json

end DemandTransport
