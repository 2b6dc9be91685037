import VectorQuery.Backend.Request
import VectorQuery.Fault

/-!
# Backends

Whatever answers requests. A backend has a state; each request gives an answer or a fault, and the next state.
-/

namespace VectorQuery

/-- States that answer requests. A request may fail and still change the state. -/
class Backend (σ : Type) where
  /-- The raw fields of the objects of a page. -/
  fetch : FetchRequest → σ → Except Fault (List Json.Fields) × σ
  /-- The number of objects. -/
  count : CountRequest → σ → Except Fault UInt64 × σ
  /-- The body of the answer to a removal. -/
  delete : DeleteRequest → σ → Except Fault Json × σ

end VectorQuery
