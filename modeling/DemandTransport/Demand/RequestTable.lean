import DemandTransport.Demand.Request

/-!
# Tables of requests

A row gives a request; both ends of its window are given or neither. The requests of a table come in
the order of their submission, those of one instant in the order of their identifiers.
-/

namespace DemandTransport.RequestTable

open Table

/-- The columns of a request table. -/
abbrev columns : List Column :=
  [required "request_id" (.count 0xffffffff), required "passenger_id" (.count 0xffffffff),
    required "origin" (.count 0xffffffff), required "destination" (.count 0xffffffff),
    required "submit_time" (.count wordLimit), possible "earliest" (.count wordLimit),
    possible "latest" (.count wordLimit)]

/-- The window in a row. -/
def window (id : RequestId) : Option Nat → Option Nat → Except DemandError (Option PickupWindow)
  | some earliest, some latest => .ok (some ⟨.ofSecs earliest, .ofSecs latest⟩)
  | none, none => .ok none
  | _, _ => .error (.halfWindow id)

/-- The request in a row. -/
def ofRow : Row columns → Except DemandError Request
  | (id, passenger, origin, destination, submitted, earliest, latest, ()) => do
    let window ← window ⟨id⟩ earliest latest
    return ⟨⟨id⟩, ⟨passenger⟩, ⟨origin⟩, ⟨destination⟩, .ofSecs submitted, window⟩

/-- Whether one request comes no later in the order than another. -/
def noLater (a b : Request) : Bool :=
  a.submitted < b.submitted || (a.submitted = b.submitted && a.id ≤ b.id)

/-- The requests in a table. -/
def read (source : String) : Except DemandError (List Request) := do
  let requests ← (rows columns source).mapM fun row => do ofRow (← row.mapError .table)
  return requests.mergeSort noLater

/-- The requests in a file, whose content is a text or the reason why it cannot be read. -/
def ofFile (content : Except String String) : Except DemandError (List Request) :=
  (content.mapError .unreadable).bind read

end DemandTransport.RequestTable
