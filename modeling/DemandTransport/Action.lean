/-!
# Actions

An action changes a state and may fail half-way. What it did before the failure stays done, so an
action gives a state in either case. Changes that happen entirely or not at all become actions by
`Action.entirely`, and an action on a part of a state becomes one on the whole by `Action.within`.
-/

namespace DemandTransport

/-- A change of a state of type `σ` that gives an `α` or fails with an `ε`. -/
abbrev Action (ε σ α : Type) := EStateM ε σ α

namespace Action

variable {ε ε' σ τ α : Type}

/-- A question to the state that may fail. -/
def ask (question : σ → Except ε α) : Action ε σ α := fun s =>
  match question s with
  | .ok a => .ok a s
  | .error e => .error e s

/-- A change that happens entirely or not at all. -/
def entirely (change : σ → Except ε (α × σ)) : Action ε σ α := fun s =>
  match change s with
  | .ok (a, s') => .ok a s'
  | .error e => .error e s

/-- A change without a result that happens entirely or not at all. -/
def change (change : σ → Except ε σ) : Action ε σ Unit := fun s =>
  match change s with
  | .ok s' => .ok () s'
  | .error e => .error e s

/-- The action with its failures told in other terms. -/
def mapError (wrap : ε → ε') (action : Action ε σ α) : Action ε' σ α := fun s =>
  match action s with
  | .ok a s' => .ok a s'
  | .error e s' => .error (wrap e) s'

/-- The action on a part of a state. -/
def within (part : σ → τ) (replace : τ → σ → σ) (action : Action ε τ α) : Action ε σ α := fun s =>
  match action (part s) with
  | .ok a t => .ok a (replace t s)
  | .error e t => .error e (replace t s)

/-- Whether the action failed, and the state it left. -/
def outcome (action : Action ε σ α) (s : σ) : Except ε α × σ :=
  match action s with
  | .ok a s' => (.ok a, s')
  | .error e s' => (.error e, s')

end Action

end DemandTransport
