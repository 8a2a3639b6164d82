import DemandTransport.Text.Json.Basic
import DemandTransport.Time
import DemandTransport.Ident

/-!
# Writing JSON

A value is written without blanks. Values of other types are written by way of the JSON value that
stands for them: lists and pairs as lists, what is missing as null, identifiers and times as counts.
What is no text is written as the first half of a pair, which is read as such again.
-/

namespace DemandTransport

namespace Json

/-- Four hexadecimal digits. -/
def hexUnit (n : Nat) : String := Decimal.padLeft 4 '0' (Decimal.hexOfNat n)

/-- A text with one more character, as it is written between quotes. -/
def writeChar (done : String) (c : Char) : String :=
  if c = '"' ∨ c = '\\' then (done.push '\\').push c
  else if c.toNat < 0x20 then done ++ "\\u" ++ hexUnit c.toNat
  else done.push c

/-- A text behind what has been written. -/
def writeText (done text : String) : String :=
  (text.foldl writeChar (done.push '"')).push '"'

/-- A whole number behind what has been written. -/
def writeInt (done : String) (n : Int) : String :=
  (if n < 0 then done.push '-' else done) ++ Decimal.ofNat n.natAbs

/-- A number with an exponent behind what has been written. -/
def writeNumeral (done : String) (n : Decimal.Numeral) : String :=
  let signed := if n.negative then done.push '-' else done
  writeInt ((signed ++ Decimal.ofNat n.digits).push 'e') n.power

mutual

/-- A value, without blanks, behind what has been written. -/
def write (done : String) : Json → String
  | null => done ++ "null"
  | bool b => done ++ if b then "true" else "false"
  | whole n => writeInt done n
  | real n => writeNumeral done n
  | text s => writeText done s
  | list items => (writeItems (done.push '[') true items).push ']'
  | object members => (writeMembers (done.push '\x7b') true members).push '\x7d'
  | halved => done ++ "\"\\ud800\""

/-- Items, with a comma in front of each but the first one. -/
def writeItems (done : String) (first : Bool) : List Json → String
  | [] => done
  | item :: items => writeItems (write (if first then done else done.push ',') item) false items

/-- Members, with a comma in front of each but the first one. -/
def writeMembers (done : String) (first : Bool) : List (String × Json) → String
  | [] => done
  | (name, value) :: members =>
    let named := (writeText (if first then done else done.push ',') name).push ':'
    writeMembers (write named value) false members

end

end Json

/-- Types whose values have a JSON form. -/
class ToJson (α : Type) where
  /-- The JSON form of a value. -/
  json : α → Json

export ToJson (json)

/-- Types whose values are some items of a list in JSON. -/
class ToJsonItems (α : Type) where
  /-- The items that stand for a value. -/
  items : α → List Json

variable {α β : Type}

instance : ToJson Json := ⟨id⟩

instance : ToJson Bool := ⟨.bool⟩

instance : ToJson Nat := ⟨fun n => .whole n⟩

instance : ToJson String := ⟨.text⟩

instance : ToJson Time := ⟨fun t => .whole t.secs⟩

instance {kind : IdKind} : ToJson (Id kind) := ⟨fun i => .whole i.index⟩

instance [ToJson α] : ToJson (Option α) := ⟨fun | some a => json a | none => .null⟩

instance [ToJson α] : ToJson (List α) := ⟨fun as => .list (as.map json)⟩

instance (priority := low) [ToJson α] : ToJsonItems α := ⟨fun a => [json a]⟩

instance [ToJson α] [ToJsonItems β] : ToJsonItems (α × β) :=
  ⟨fun (a, b) => json a :: ToJsonItems.items b⟩

instance [ToJson α] [ToJsonItems β] : ToJson (α × β) := ⟨fun p => .list (ToJsonItems.items p)⟩

/-- The object with the given names, separated by blanks, and the values of its members. The members
come in the order of their names. -/
def Json.record [ToJsonItems α] (names : String) (values : α) : Json :=
  .object (((names.splitOn " ").zip (ToJsonItems.items values)).mergeSort fun a b => a.1 ≤ b.1)

end DemandTransport
