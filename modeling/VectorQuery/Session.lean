import VectorQuery.Backend.Basic
import VectorQuery.DeleteSummary
import VectorQuery.Query.Call
import VectorQuery.StoredObject

/-!
# Sessions

A query at work on a backend. The objects of a fetch are kept until a call changes the query, so that any
number of reads costs one fetch.

* `Session` — a query, the objects that are loaded, and a backend.
* `Session.build` — a call that builds the query; it drops the loaded objects if it succeeds.
* `Session.objects` — the loaded objects, fetched if there are none.
* `Session.count`, `Session.deleteAll` — the other two requests.
* `Operation`, `Answer`, `Session.run` — everything a session does, as one step.
-/

namespace VectorQuery

/-- A query on a backend, and the objects that its last fetch gave while they are current. -/
structure Session (σ : Type) where
  query : Query
  loaded : Option (List StoredObject) := none
  backend : σ

/-- A way to look at the objects of a query. -/
inductive Read
  | all
  | first
  | last
  | get (index : Nat)
  | size
  | isEmpty

/-- Something that a session is told to do. -/
inductive Operation
  | build (call : Call)
  | read (view : Read)
  | request
  | count
  | deleteAll

/-- What a session answers. -/
inductive Answer
  | done
  | objects (objects : List StoredObject)
  | object (object : Option StoredObject)
  | size (size : Nat)
  | truth (value : Bool)
  | request (request : FetchRequest)
  | total (total : UInt64)
  | summary (summary : DeleteSummary)

/-- A view of a list of objects. -/
def Read.view (objects : List StoredObject) : Read → Answer
  | .all => .objects objects
  | .first => .object objects.head?
  | .last => .object objects.getLast?
  | .get index => .object objects[index]?
  | .size => .size objects.length
  | .isEmpty => .truth objects.isEmpty

namespace Session

variable {σ : Type}

/-- Whether the objects of the query are loaded. -/
def isLoaded (session : Session σ) : Bool := session.loaded.isSome

/-! ### Building -/

/-- The session with another query. -/
def withQuery (query : Query) (session : Session σ) : Session σ := { session with query }

/-- A call that builds the query. Once it is done, the loaded objects are dropped. -/
def build (call : Call) : Change (Session σ) Unit := do
  Change.within (·.query) withQuery (Query.perform call)
  modify fun session => { session with loaded := none }

/-! ### Requests -/

variable [Backend σ]

/-- The objects of raw fields, as this query's. -/
def parse (session : Session σ) (batch : List Json.Fields) : List StoredObject :=
  batch.map fun raw => StoredObject.ofFields raw !session.query.selection.isEmpty

/-- The objects of the query; they are fetched if they are not loaded. -/
def objects (session : Session σ) : Except Fault (List StoredObject) × Session σ :=
  match session.loaded with
  | some objects => (.ok objects, session)
  | none =>
    match session.query.fetchRequest with
    | .error fault => (.error fault, session)
    | .ok request =>
      match Backend.fetch request session.backend with
      | (.error fault, backend) => (.error fault, { session with backend })
      | (.ok batch, backend) =>
        let objects := session.parse batch
        (.ok objects, { session with loaded := some objects, backend })

/-- The number of objects that the backend has; nothing that is loaded changes. -/
def count (session : Session σ) : Except Fault UInt64 × Session σ :=
  match Backend.count session.query.countRequest session.backend with
  | (answer, backend) => (answer, { session with backend })

/-- Removes the objects of the query, which must have a condition. The loaded objects are dropped once the backend
says that it is done. -/
def deleteAll (session : Session σ) : Except Fault DeleteSummary × Session σ :=
  match session.query.deleteRequest? with
  | none => (.error .missingCondition, session)
  | some request =>
    match Backend.delete request session.backend with
    | (.error fault, backend) => (.error fault, { session with backend })
    | (.ok body, backend) =>
      match DeleteSummary.ofBody body with
      | .error fault => (.error fault, { session with backend })
      | .ok summary => (.ok summary, { session with loaded := none, backend })

/-! ### Steps -/

/-- What a session answers to an operation, and the session after it. -/
def run (session : Session σ) : Operation → Except Fault Answer × Session σ
  | .build call =>
    let (result, next) := (build call).on session
    (result.map fun _ => .done, next)
  | .read view =>
    let (result, next) := session.objects
    (result.map view.view, next)
  | .request => (session.query.fetchRequest.map .request, session)
  | .count =>
    let (result, next) := session.count
    (result.map .total, next)
  | .deleteAll =>
    let (result, next) := session.deleteAll
    (result.map .summary, next)

end Session

end VectorQuery
