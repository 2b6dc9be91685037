import Mathlib
import VectorQuery.Proofs.Query.Calls
import VectorQuery.Session

/-!
# What a session can do

Every operation of a session takes one of a few kinds of step.  A session shares its backend, so
between its own steps the backend may change in any way.

* `Session.parse_eq` — the objects that a query makes of raw fields;
* `Session.Loading`, `Session.Deletion` — what comes of a read and of a delete;
* `Session.Step` — the kinds of steps, with what each does to the query, the loaded objects and the
  backend;
* `Session.run_step` — every operation takes such a step;
* `Event`, `Session.start`, `Session.after` — what happens to a session, from a new query on;
* `Session.query_after` — what every call that builds keeps holds of the query throughout;
* `Session.run_build` — a call that builds fails without a trace, or drops the loaded objects;
* `Session.build_local` — **building is atomic and local in every session that can come about**.
-/

namespace VectorQuery

variable {σ : Type}

namespace Session

/-! ### Building -/

theorem build_eq (call : Call) (session : Session σ) :
    build call session
      = match Query.perform call session.query with
        | .ok () query => .ok () { session with query, loaded := none }
        | .error fault query => .error fault { session with query } := by
  show EStateM.bind (Change.within (·.query) withQuery (Query.perform call)) _ session = _
  rw [EStateM.bind, Change.within]
  cases Query.perform call session.query <;> rfl

/-- A call that builds fails without a trace, or does what it says and drops the loaded objects. -/
theorem build_cases (call : Call) (session : Session σ) :
    Change.Clean (build call) session fun next =>
      ∃ query, session.query.Built call query ∧ next = { session with query, loaded := none } := by
  rw [Change.Clean, build_eq]
  rcases Query.perform_cases call session.query with ⟨fault, hfault⟩ | ⟨query, hquery, hbuilt⟩
  · rw [hfault]
    exact Or.inl ⟨fault, rfl⟩
  · rw [hquery]
    exact Or.inr ⟨_, rfl, query, hbuilt, rfl⟩

/-- An object keeps whether the query selects fields. -/
theorem parse_eq (session : Session σ) (batch : List Json.Fields) :
    session.parse batch
      = batch.map fun raw => StoredObject.ofFields raw session.query.selection.HasFields := by
  simp only [parse, Selection.isEmpty_eq, Bool.not_not]

variable [Backend σ]

theorem run_build (call : Call) (session : Session σ) :
    (∃ fault, session.run (.build call) = (.error fault, session))
    ∨ ∃ query, session.query.Built call query
      ∧ session.run (.build call) = (.ok .done, { session with query, loaded := none }) := by
  rcases build_cases call session with ⟨fault, hfault⟩ | ⟨next, hnext, query, hbuilt, rfl⟩
  · refine Or.inl ⟨fault, ?_⟩
    rw [run, Change.on, hfault]
    rfl
  · refine Or.inr ⟨query, hbuilt, ?_⟩
    rw [run, Change.on, hnext]
    rfl

/-! ### Loading and deleting -/

/-- What comes of asking for the objects: an answer and the session after it. -/
inductive Loading (session : Session σ) : Except Fault (List StoredObject) → Session σ → Prop
  | kept {objects : List StoredObject} (hloaded : session.loaded = some objects) :
      Loading session (.ok objects) session
  | unwritten {fault : Fault} (hloaded : session.loaded = none)
      (hrequest : session.query.fetchRequest = .error fault) :
      Loading session (.error fault) session
  | failed {request : FetchRequest} {fault : Fault} {backend : σ} (hloaded : session.loaded = none)
      (hrequest : session.query.fetchRequest = .ok request)
      (h : Backend.fetch request session.backend = (.error fault, backend)) :
      Loading session (.error fault) { session with backend }
  | fetched {request : FetchRequest} {batch : List Json.Fields} {backend : σ}
      (hloaded : session.loaded = none)
      (hrequest : session.query.fetchRequest = .ok request)
      (h : Backend.fetch request session.backend = (.ok batch, backend)) :
      Loading session (.ok (session.parse batch))
        { session with loaded := some (session.parse batch), backend }

theorem loading (session : Session σ) : Loading session session.objects.1 session.objects.2 := by
  rw [objects]
  split
  · rename_i objects hloaded
    exact .kept hloaded
  · rename_i hloaded
    split
    · rename_i fault hrequest
      exact .unwritten hloaded hrequest
    · rename_i request hrequest
      split
      · rename_i fault backend h
        exact .failed hloaded hrequest h
      · rename_i batch backend h
        exact .fetched hloaded hrequest h

/-- What comes of a delete: an answer and the session after it. -/
inductive Deletion (session : Session σ) : Except Fault DeleteSummary → Session σ → Prop
  | refused (hrequest : session.query.deleteRequest? = none) :
      Deletion session (.error .missingCondition) session
  | failed {request : DeleteRequest} {fault : Fault} {backend : σ}
      (hrequest : session.query.deleteRequest? = some request)
      (h : Backend.delete request session.backend = (.error fault, backend)) :
      Deletion session (.error fault) { session with backend }
  | rejected {request : DeleteRequest} {body : Json} {fault : Fault} {backend : σ}
      (hrequest : session.query.deleteRequest? = some request)
      (h : Backend.delete request session.backend = (.ok body, backend))
      (hbody : DeleteSummary.ofBody body = .error fault) :
      Deletion session (.error fault) { session with backend }
  | done {request : DeleteRequest} {body : Json} {summary : DeleteSummary} {backend : σ}
      (hrequest : session.query.deleteRequest? = some request)
      (h : Backend.delete request session.backend = (.ok body, backend))
      (hbody : DeleteSummary.ofBody body = .ok summary) :
      Deletion session (.ok summary) { session with loaded := none, backend }

theorem deletion (session : Session σ) :
    Deletion session session.deleteAll.1 session.deleteAll.2 := by
  rw [deleteAll]
  split
  · rename_i hrequest
    exact .refused hrequest
  · rename_i request hrequest
    split
    · rename_i fault backend h
      exact .failed hrequest h
    · rename_i body backend h
      split
      · rename_i fault hbody
        exact .rejected hrequest h hbody
      · rename_i summary hbody
        exact .done hrequest h hbody

/-! ### Steps -/

/-- What a session may do in one step. -/
inductive Step (session : Session σ) : Session σ → Prop
  | idle : Step session session
  | built {call : Call} {query : Query} (h : session.query.Built call query) :
      Step session { session with query, loaded := none }
  | fetched {request : FetchRequest} {batch : List Json.Fields} {backend : σ}
      (hloaded : session.loaded = none)
      (hrequest : session.query.fetchRequest = .ok request)
      (h : Backend.fetch request session.backend = (.ok batch, backend)) :
      Step session { session with loaded := some (session.parse batch), backend }
  | fetchFailed {request : FetchRequest} {fault : Fault} {backend : σ}
      (hloaded : session.loaded = none)
      (hrequest : session.query.fetchRequest = .ok request)
      (h : Backend.fetch request session.backend = (.error fault, backend)) :
      Step session { session with backend }
  | counted :
      Step session { session with
        backend := (Backend.count session.query.countRequest session.backend).2 }
  | deleteFailed {request : DeleteRequest} (hrequest : session.query.deleteRequest? = some request) :
      Step session { session with backend := (Backend.delete request session.backend).2 }
  | deleted {request : DeleteRequest} {body : Json} {summary : DeleteSummary} {backend : σ}
      (hrequest : session.query.deleteRequest? = some request)
      (h : Backend.delete request session.backend = (.ok body, backend))
      (hsummary : DeleteSummary.ofBody body = .ok summary) :
      Step session { session with loaded := none, backend }

theorem Loading.step {session next : Session σ} {answer : Except Fault (List StoredObject)}
    (h : Loading session answer next) : Step session next := by
  cases h with
  | kept => exact .idle
  | unwritten => exact .idle
  | failed hloaded hrequest h => exact .fetchFailed hloaded hrequest h
  | fetched hloaded hrequest h => exact .fetched hloaded hrequest h

theorem Deletion.step {session next : Session σ} {answer : Except Fault DeleteSummary}
    (h : Deletion session answer next) : Step session next := by
  -- a delete that fails leaves the backend as the request left it, whatever the answer was
  have hfailed : ∀ {request : DeleteRequest} {outcome : Except Fault Json} {backend : σ},
      session.query.deleteRequest? = some request →
      Backend.delete request session.backend = (outcome, backend) →
      Step session { session with backend } := by
    intro request outcome backend hrequest h
    have hstep := Step.deleteFailed hrequest
    rw [h] at hstep
    exact hstep
  cases h with
  | refused => exact .idle
  | failed hrequest h => exact hfailed hrequest h
  | rejected hrequest h => exact hfailed hrequest h
  | done hrequest h hbody => exact .deleted hrequest h hbody

/-- Every operation takes a step of one of these kinds. -/
theorem run_step (session : Session σ) (operation : Operation) :
    Step session (session.run operation).2 := by
  cases operation with
  | build call =>
    rcases run_build call session with ⟨fault, hfault⟩ | ⟨query, hbuilt, hrun⟩
    · rw [hfault]
      exact .idle
    · rw [hrun]
      exact .built hbuilt
  | read view => exact session.loading.step
  | request => exact .idle
  | count => exact .counted
  | deleteAll => exact session.deletion.step

end Session

/-! ### Histories -/

/-- Something that happens to a session: an operation of its own, or a change of the backend that it
shares. -/
inductive Event (σ : Type)
  | own (operation : Operation)
  | foreign (change : σ → σ)

namespace Session

/-- The session of a new query. -/
def start (collection : Collection) (defaults : Defaults) (backend : σ) : Session σ where
  query := .new collection defaults
  backend

variable [Backend σ]

/-- The session after an event. -/
def occur (session : Session σ) : Event σ → Session σ
  | .own operation => (session.run operation).2
  | .foreign change => { session with backend := change session.backend }

/-- The session after events in their order. -/
def after (session : Session σ) (events : List (Event σ)) : Session σ := events.foldl occur session

/-- Only calls that build change the query, so what they all keep holds of it after any step. -/
theorem Step.query {session next : Session σ} (h : Step session next) {p : Query → Prop}
    (hbuilt : ∀ {before after call}, Query.Built before call after → p before → p after)
    (hquery : p session.query) :
    p next.query := by
  cases h with
  | built h => exact hbuilt h hquery
  | _ => exact hquery

/-- What all calls that build keep holds of the query after any events. -/
theorem query_after {session : Session σ} {p : Query → Prop}
    (hbuilt : ∀ {before after call}, Query.Built before call after → p before → p after)
    (hquery : p session.query) (events : List (Event σ)) :
    p (session.after events).query := by
  induction events generalizing session with
  | nil => exact hquery
  | cons event events ih =>
    show p ((session.occur event).after events).query
    apply ih
    cases event with
    | own operation => exact (session.run_step operation).query hbuilt hquery
    | foreign change => exact hquery

/-- The selection of a session can always be written. -/
theorem rendered_after {session : Session σ} (hrendered : session.query.Rendered)
    (events : List (Event σ)) :
    (session.after events).query.Rendered :=
  query_after (fun hbuilt => hbuilt.rendered) hrendered events

/-- So can that of a session from a new query on. -/
theorem rendered_start (collection : Collection) (defaults : Defaults) (backend : σ)
    (events : List (Event σ)) :
    ((start collection defaults backend).after events).query.Rendered :=
  rendered_after (Query.rendered_new collection defaults) events

/-- A session stays on its collection. -/
theorem collection_after (session : Session σ) (events : List (Event σ)) :
    (session.after events).query.collection = session.query.collection :=
  query_after (p := fun query => query.collection = session.query.collection)
    (fun hbuilt h => hbuilt.agrees.collection.trans h) rfl events

/-- **Building is atomic and local.**  In every session that can come about, a call that fails
leaves the session as it is.  A call that succeeds sends nothing and drops the loaded objects, and
the query and its request change only in the part that the call names; a keyword takes the sort keys
out of the request. -/
theorem build_local (collection : Collection) (defaults : Defaults) (backend : σ)
    (events : List (Event σ)) (call : Call) :
    let session := (start collection defaults backend).after events
    match session.run (.build call) with
    | (.error _, next) => next = session
    | (.ok _, next) =>
      next.backend = session.backend ∧ next.loaded = none
      ∧ session.query.AgreesOutside call.part next.query
      ∧ ∃ old new, session.query.fetchRequest = .ok old ∧ next.query.fetchRequest = .ok new
        ∧ old.AgreesOutside call.part new := by
  intro session
  have hrendered : session.query.Rendered :=
    rendered_after (Query.rendered_new collection defaults) events
  rcases run_build call session with ⟨fault, hfault⟩ | ⟨query, hbuilt, hrun⟩
  · rw [hfault]
  · rw [hrun]
    obtain ⟨old, hold⟩ := hrendered.request
    obtain ⟨new, hnew⟩ := (hbuilt.rendered hrendered).request
    exact ⟨rfl, rfl, hbuilt.agrees, old, new, hold, hnew, hbuilt.request hold hnew⟩

end Session

end VectorQuery
