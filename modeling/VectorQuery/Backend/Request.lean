import VectorQuery.Json.Basic

/-!
# Requests

What a query sends to its backend. A part that was not asked for is not sent.

* `FetchRequest` — a page of objects.
* `CountRequest` — the number of objects.
* `DeleteRequest` — the removal of objects.
* `Request` — any of the three.
-/

namespace VectorQuery

/-- A request for a page of objects. -/
structure FetchRequest where
  collection : String
  limit : String
  offset : String
  fields : String
  nearText : Option String := none
  nearVector : Option String := none
  nearObject : Option String := none
  keyword : Option String := none
  condition : Option String := none
  sort : Option String := none
  question : Option String := none
deriving DecidableEq

/-- A request for the number of objects. -/
structure CountRequest where
  collection : String
  fields : String
  nearText : Option String := none
  nearVector : Option String := none
  nearObject : Option String := none
  condition : Option String := none
deriving DecidableEq

/-- The field list of every count. -/
def CountRequest.countFields : String := "meta \x7b count \x7d"

/-- A request to remove objects; the condition is a document. -/
structure DeleteRequest where
  collection : String
  condition : Json

/-- Any request. -/
inductive Request
  | fetch (request : FetchRequest)
  | count (request : CountRequest)
  | delete (request : DeleteRequest)

end VectorQuery
