import DemandTransport.Ident

/-!
# Input from outside

What can be wrong with identifiers and files that are handed in from outside, whatever they are used
for.
-/

namespace DemandTransport

/-- The word for a kind of thing. -/
def IdKind.word : IdKind → String
  | .vehicle => "vehicle"
  | .request => "request"
  | .passenger => "passenger"
  | .charger => "charger"
  | .node => "node"
  | .link => "link"

/-- What is wrong with an input. -/
inductive InputError where
  /-- There is no thing with an identifier. -/
  | notFound {kind : IdKind} (id : Id kind)
  /-- Settings that cannot be used, for the given reason. -/
  | settings (reason : String)
  /-- A text that cannot be understood, for the given reason. -/
  | malformed (reason : String)
  /-- A file that cannot be read, for the given reason. -/
  | unreadable (reason : String)
  deriving DecidableEq, Repr

/-- The wording of an input error. -/
def InputError.message : InputError → String
  | @notFound kind id => kind.word ++ " " ++ id.text ++ " not found"
  | .settings reason => "configuration error: " ++ reason
  | .malformed reason => "parse error: " ++ reason
  | .unreadable reason => "I/O error: " ++ reason

end DemandTransport
