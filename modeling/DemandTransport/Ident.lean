import DemandTransport.Decimal.Digits

/-!
# Identifiers

Vehicles, requests, passengers, chargers, nodes and links are named by numbers. The kind of thing is
part of an identifier's type, and identifiers of one kind are ordered by their numbers, which
decides every tie.
-/

namespace DemandTransport

/-- The kinds of things that have identifiers. -/
inductive IdKind where
  | vehicle
  | request
  | passenger
  | charger
  | node
  | link
  deriving DecidableEq, Repr

/-- The letters in front of an identifier's number. -/
def IdKind.letters : IdKind → String
  | .vehicle => "veh"
  | .request => "req"
  | .passenger => "pax"
  | .charger => "chg"
  | .node => "node"
  | .link => "link"

/-- An identifier of a kind of thing. -/
structure Id (kind : IdKind) where
  /-- The number that tells it from the others of its kind. -/
  index : Nat
  deriving DecidableEq, Repr

/-- A vehicle of the fleet; a fleet numbers its vehicles from zero on. -/
abbrev VehicleId := Id .vehicle

/-- A trip request. -/
abbrev RequestId := Id .request

/-- A person who travels. -/
abbrev PassengerId := Id .passenger

/-- A charger. -/
abbrev ChargerId := Id .charger

/-- A node of the road network, numbered from zero on. -/
abbrev NodeId := Id .node

/-- A directed link of the road network, numbered from zero on. -/
abbrev LinkId := Id .link

namespace Id

variable {kind : IdKind}

/-- The number that stands for "no such thing"; identifiers are below it. -/
def none : Nat := 0xffffffff

instance : LE (Id kind) := ⟨fun a b => a.index ≤ b.index⟩

instance : LT (Id kind) := ⟨fun a b => a.index < b.index⟩

instance : DecidableLE (Id kind) := fun a b => Nat.decLe a.index b.index

instance : DecidableLT (Id kind) := fun a b => Nat.decLt a.index b.index

theorem le_iff {a b : Id kind} : a ≤ b ↔ a.index ≤ b.index := Iff.rfl

theorem lt_iff {a b : Id kind} : a < b ↔ a.index < b.index := Iff.rfl

theorem eq_iff {a b : Id kind} : a = b ↔ a.index = b.index :=
  ⟨fun h => h ▸ rfl, fun h => by cases a; cases b; cases h; rfl⟩

/-- Whether the identifier names a thing at all. -/
def isValid (id : Id kind) : Bool := id.index != none

/-- The identifier with a number, if numbers of identifiers reach that far. -/
def ofIndex? (n : Nat) : Option (Id kind) := if n ≤ none then some ⟨n⟩ else .none

/-- The letters of the kind and the number, or a question mark for no thing. -/
def text (id : Id kind) : String :=
  kind.letters ++ if id.isValid then Decimal.ofNat id.index else "?"

end Id

end DemandTransport
