import VectorQuery.Fault

/-!
# Changes

A change of a state may fail half-way. It gives the state back also then, with all that it has written before.

* `Change` — a change of a state, with a result.
* `Change.check` — a test, which writes nothing.
* `Change.within` — a change of a part of a state.
* `Change.on` — the result of a change and the state after it; `Change.outcome` keeps the state only if the change
  does not fail.
-/

namespace VectorQuery

/-- A change of a state, which gives a result or a fault. -/
abbrev Change (σ α : Type) := EStateM Fault σ α

namespace Change

variable {σ τ α : Type}

/-- A test before or between writes. -/
def check : Except Fault α → Change σ α
  | .ok value => pure value
  | .error fault => throw fault

/-- A change of a part of a state. What it writes into the part is kept, whether it fails or not. -/
def within (part : σ → τ) (put : τ → σ → σ) (change : Change τ α) : Change σ α := fun state =>
  match change (part state) with
  | .ok value next => .ok value (put next state)
  | .error fault next => .error fault (put next state)

/-- The result of a change, and the state after it. -/
def on (change : Change σ α) (state : σ) : Except Fault α × σ :=
  match change state with
  | .ok value next => (.ok value, next)
  | .error fault next => (.error fault, next)

/-- The state after a change that does not fail. -/
def outcome (change : Change σ Unit) (state : σ) : Except Fault σ :=
  match change.on state with
  | (.ok (), next) => .ok next
  | (.error fault, _) => .error fault

end Change

end VectorQuery
