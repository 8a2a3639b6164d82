import DemandTransport.Ident
import DemandTransport.Text.Quoted
import DemandTransport.Text.Table
import DemandTransport.Time

/-!
# Trip requests

A passenger asks to be taken from one node to another, either as soon as possible or with a window
of time for the pickup. A request is unplanned until a vehicle is found for it, then planned, and in
the end performed or cancelled.
-/

namespace DemandTransport

/-- A time for the pickup, both ends included. -/
structure PickupWindow where
  /-- The first acceptable instant. -/
  earliest : Time
  /-- The last acceptable instant. -/
  latest : Time
  deriving DecidableEq, Repr

/-- Whether an instant lies in a window. -/
def PickupWindow.contains (window : PickupWindow) (t : Time) : Bool :=
  window.earliest ≤ t && t ≤ window.latest

/-- A passenger's wish to travel. -/
structure Request where
  /-- The request's identifier. -/
  id : RequestId
  /-- Who travels. -/
  passenger : PassengerId
  /-- Where the trip begins. -/
  origin : NodeId
  /-- Where the trip ends. -/
  destination : NodeId
  /-- When the request is made. -/
  submitted : Time
  /-- When the passenger may be picked up; without a window, as soon as possible. -/
  window : Option PickupWindow := none
  deriving DecidableEq, Repr

/-- The last acceptable pickup, if there is one. -/
def Request.latestPickup? (request : Request) : Option Time :=
  request.window.map PickupWindow.latest

/-- Why a request was cancelled. -/
inductive CancelReason where
  /-- It stayed unplanned for too long. -/
  | expired
  /-- Its window closed before a vehicle was found. -/
  | windowClosed
  /-- The passenger or the operator withdrew it. -/
  | withdrawn (why : String)
  deriving DecidableEq, Repr

/-- The wording of a reason. -/
def CancelReason.text : CancelReason → String
  | .expired => "expired"
  | .windowClosed => "pickup window closed"
  | .withdrawn why => "withdrawn: " ++ why

/-- The reason as a term, with its text in quotes. -/
def CancelReason.term : CancelReason → String
  | .expired => "Expired"
  | .windowClosed => "WindowClosed"
  | .withdrawn why => "Withdrawn(" ++ Text.quoted why ++ ")"

/-- Where a request stands. -/
inductive RequestStatus where
  | unplanned
  | planned
  | performed
  | cancelled (reason : CancelReason)
  deriving DecidableEq, Repr

/-- Whether nothing can happen to the request any more. -/
def RequestStatus.isFinal : RequestStatus → Bool
  | .performed => true
  | .cancelled _ => true
  | _ => false

/-- The status as a term. -/
def RequestStatus.term : RequestStatus → String
  | .unplanned => "Unplanned"
  | .planned => "Planned"
  | .performed => "Performed"
  | .cancelled reason => "Cancelled(" ++ reason.term ++ ")"

/-- What is to become of a request. -/
inductive RequestChange where
  | plan
  | cancel
  | pickUp
  | perform
  | withdraw
  /-- Anything at all, of a request that is final. -/
  | anything
  deriving DecidableEq, Repr

/-- The word for what a request has become. -/
def RequestChange.participle : RequestChange → String
  | .plan => "planned"
  | .cancel => "cancelled"
  | .pickUp => "picked up"
  | .perform => "performed"
  | .withdraw => "withdrawn"
  | .anything => "changed"

/-- What can go wrong with requests. -/
inductive DemandError where
  | duplicateRequest (request : RequestId)
  | requestNotFound (request : RequestId)
  | invalidTransition (request : RequestId) (current : RequestStatus) (change : RequestChange)
  /-- The window of a request closes before it opens. -/
  | invertedWindow (request : RequestId) (earliest latest : Time)
  /-- A file cannot be read, for the given reason. -/
  | unreadable (reason : String)
  | table (fault : Table.TableFault)
  /-- A row of a request table gives one end of a window only. -/
  | halfWindow (request : RequestId)
  deriving Repr

/-- The wording of a demand error. -/
def DemandError.message : DemandError → String
  | .duplicateRequest request => "request " ++ request.text ++ " already submitted"
  | .requestNotFound request => "request " ++ request.text ++ " not found"
  | .invalidTransition request current change =>
    "request " ++ request.text ++ " cannot become " ++ change.participle ++ " from " ++
      current.term
  | .invertedWindow request earliest latest =>
    "invalid request " ++ request.text ++ ": window closes at " ++ latest.text ++
      " before it opens at " ++ earliest.text
  | .unreadable reason => "I/O error: " ++ reason
  | .table fault => "request parse error: " ++ fault.message
  | .halfWindow request =>
    "request parse error: request " ++ request.text ++
      ": earliest and latest must be given together"

end DemandTransport
