import Mathlib
import VectorQuery.Backend.Scripted
import VectorQuery.Proofs.Change
import VectorQuery.Proofs.Session.Interleaving
import VectorQuery.Proofs.Session.Reading

/-!
# A count depends on few calls and disturbs nothing

The request for a count is made from four parts of the query, and each part is what the calls that
name it have made of it.  So two runs that agree on the calls that name these parts ask for the same
count, whatever else they do.

* `Session.completed` — the calls among events that build the query and succeed;
* `Session.query_after_completed` — the query is what these calls make of it;
* `Session.view_after` — and so is all that can be said of the query call by call;
* `Query.Part.counted` — the parts that a count depends on;
* `CountRequest.Reduces` — a count beside the fetch of the same query;
* `Session.count_isolated` — **what a count sends, what it leaves alone, and what it does not depend
  on**.
-/

namespace VectorQuery

/-! ### Requests -/

/-- A count asks about the objects of a fetch, in the fields of every count. -/
structure CountRequest.Reduces (request : CountRequest) (fetch : FetchRequest) : Prop where
  collection : request.collection = fetch.collection
  fields : request.fields = "meta \x7b count \x7d"
  nearText : request.nearText = fetch.nearText
  nearVector : request.nearVector = fetch.nearVector
  nearObject : request.nearObject = fetch.nearObject
  condition : request.condition = fetch.condition

namespace Query

theorem countRequest_reduces {query : Query} {fetch : FetchRequest}
    (h : query.fetchRequest = .ok fetch) :
    query.countRequest.Reduces fetch := by
  obtain ⟨fields, -, rfl⟩ := fetchRequest_eq_ok_iff.1 h
  exact ⟨rfl, rfl, rfl, rfl, rfl, rfl⟩

/-- The parts of a query that a count depends on. -/
def Part.counted : List Part := [.condition, .phrases, .vector, .object]

/-- Queries that agree on the counted parts ask for the same count. -/
theorem countRequest_congr {query other : Query}
    (h : ∀ part ∈ Part.counted, query.only part = other.only part) :
    query.countRequest = other.countRequest := by
  have hparts : ∀ query : Query, query.countRequest = {
      collection := (query.only .condition).collection.name
      fields := CountRequest.countFields
      nearText := (query.only .phrases).search.nearTextWire?
      nearVector := (query.only .vector).search.nearVectorWire?
      nearObject := (query.only .object).search.nearObjectWire?
      condition := (query.only .condition).conditionWire? } := fun _ => rfl
  rw [hparts query, hparts other, h .condition (by decide), h .phrases (by decide),
    h .vector (by decide), h .object (by decide)]

end Query

namespace Session

variable {σ : Type} [Backend σ]

/-! ### Calls that succeed -/

/-- The call that an event is, if it builds the query and succeeds. -/
def completes (session : Session σ) : Event σ → Option Call
  | .own (.build call) => if (session.run (.build call)).1.isOk then some call else none
  | _ => none

/-- The calls among events that build the query and succeed. -/
def completed (session : Session σ) : List (Event σ) → List Call
  | [] => []
  | event :: events => (session.completes event).toList ++ completed (session.occur event) events

/-- A session builds its query. -/
theorem run_build_query (call : Call) (session : Session σ) :
    (session.run (.build call)).2.query = ((Query.perform call).on session.query).2 := by
  simp only [run, Change.on, build_eq]
  cases Query.perform call session.query <;> rfl

/-- A read leaves the query alone. -/
theorem Loading.query {session next : Session σ} {answer : Except Fault (List StoredObject)}
    (h : Loading session answer next) :
    next.query = session.query := by
  cases h <;> rfl

/-- A delete leaves the query alone. -/
theorem Deletion.query {session next : Session σ} {answer : Except Fault DeleteSummary}
    (h : Deletion session answer next) :
    next.query = session.query := by
  cases h <;> rfl

/-- An event leaves the query alone, or it completes a call that builds it. -/
theorem completes_cases (session : Session σ) (event : Event σ) :
    (session.completes event = none ∧ (session.occur event).query = session.query)
    ∨ ∃ call, session.completes event = some call
      ∧ session.query.Built call (session.occur event).query := by
  cases event with
  | foreign change => exact Or.inl ⟨rfl, rfl⟩
  | own operation =>
    cases operation with
    | build call =>
      show (_ ∧ (session.run (.build call)).2.query = _) ∨ ∃ found, _
        ∧ session.query.Built found (session.run (.build call)).2.query
      rw [completes]
      rcases session.run_build call with ⟨fault, hfault⟩ | ⟨query, hbuilt, hrun⟩
      · rw [hfault]
        exact Or.inl ⟨rfl, rfl⟩
      · rw [hrun]
        exact Or.inr ⟨call, rfl, hbuilt⟩
    | read view => exact Or.inl ⟨rfl, session.loading.query⟩
    | request => exact Or.inl ⟨rfl, rfl⟩
    | count => exact Or.inl ⟨rfl, rfl⟩
    | deleteAll => exact Or.inl ⟨rfl, session.deletion.query⟩

/-- An event does to the query what the call does that it completes. -/
theorem query_occur (session : Session σ) (event : Event σ) :
    (session.occur event).query
      = (Change.onAll Query.perform session.query (session.completes event).toList).2 := by
  cases event with
  | foreign change => rfl
  | own operation =>
    cases operation with
    | build call =>
      show (session.run (.build call)).2.query = _
      rcases session.run_build call with ⟨fault, hfault⟩ | ⟨query, -, hrun⟩
      · rw [completes, hfault]
        rfl
      · rw [run_build_query, completes, hrun]
        rfl
    | read view => exact session.loading.query
    | request => rfl
    | count => rfl
    | deleteAll => exact session.deletion.query

/-- **The query is what the calls make of it that have succeeded.** -/
theorem query_after_completed (session : Session σ) (events : List (Event σ)) :
    (session.after events).query
      = (Change.onAll Query.perform session.query (session.completed events)).2 := by
  induction events generalizing session with
  | nil => rfl
  | cons event events ih =>
    show ((session.occur event).after events).query = _
    rw [ih, query_occur, completed, Change.onAll_append]

/-- What each call that builds changes in its own way is what the calls make of it that have
succeeded. -/
theorem view_after {β : Type} (view : Query → β) (give : β → Call → β)
    (hbuilt : ∀ {before after : Query} {call : Call}, before.Built call after →
      view after = give (view before) call)
    (session : Session σ) (events : List (Event σ)) :
    view (session.after events).query
      = (session.completed events).foldl give (view session.query) := by
  induction events generalizing session with
  | nil => rfl
  | cons event events ih =>
    show view ((session.occur event).after events).query = _
    rw [ih, completed, List.foldl_append]
    rcases session.completes_cases event with ⟨hnone, hquery⟩ | ⟨call, hcall, hstep⟩
    · rw [hnone, hquery]
      rfl
    · rw [hcall, hbuilt hstep]
      rfl

/-- A part is what the calls on it have made of it, whatever else has happened. -/
theorem only_after_congr {τ : Type} [Backend τ] {session : Session σ} {other : Session τ}
    (hquery : session.query = other.query) {events : List (Event σ)} {others : List (Event τ)}
    {part : Query.Part}
    (hsame : (session.completed events).filter (·.part = part)
      = (other.completed others).filter (·.part = part)) :
    (session.after events).query.only part = (other.after others).query.only part := by
  rw [query_after_completed, query_after_completed]
  have hone := congrArg Prod.snd
    (Query.onAll_only part session.query (session.completed events))
  have htwo := congrArg Prod.snd (Query.onAll_only part other.query (other.completed others))
  rw [hsame, hquery] at hone
  rw [hquery]
  exact hone.symm.trans htwo

/-! ### Counts -/

/-- **A count sends one request and disturbs nothing.**  In every session that can come about, the
request of a count is that of the fetch, reduced to the collection, the condition and the searches
near something, with the fields of every count.  It is sent once; the answer is passed on, whatever
it is, and only the backend may change.  In any other run on the same collection and with the same
defaults that agrees, part by part, on the calls that have succeeded on these four parts, the request
is the same. -/
theorem count_isolated (collection : Collection) (defaults : Defaults) (backend : σ)
    (events : List (Event σ)) :
    let session := (start collection defaults backend).after events
    let request := session.query.countRequest
    let answered := Backend.count request session.backend
    (∃ fetch, session.query.fetchRequest = .ok fetch ∧ request.Reduces fetch)
    ∧ session.run .count = (answered.1.map .total, { session with backend := answered.2 })
    ∧ (∀ log : Backend.Log σ,
        log.requests (session.run .count).2.backend
          = log.requests session.backend ++ [.count request])
    ∧ ∀ (τ : Type) [Backend τ] (other : τ) (others : List (Event τ)),
        (∀ part ∈ Query.Part.counted,
          ((start collection defaults backend).completed events).filter (·.part = part)
            = ((start collection defaults other).completed others).filter (·.part = part)) →
        ((start collection defaults other).after others).query.countRequest = request := by
  intro session request answered
  have hrendered : session.query.Rendered :=
    rendered_after (Query.rendered_new collection defaults) events
  obtain ⟨fetch, hfetch⟩ := hrendered.request
  refine ⟨⟨fetch, hfetch, Query.countRequest_reduces hfetch⟩, rfl, fun log => log.count _ _, ?_⟩
  intro τ _ other others hsame
  have hquery : (start collection defaults backend).query = (start collection defaults other).query :=
    rfl
  exact Query.countRequest_congr fun part hpart =>
    (only_after_congr hquery (hsame part hpart)).symm

/-- A vector, between a limit, a read and a keyword. -/
def vectorAndKeyword : List (Event ScriptedBackend) :=
  [.own (.build (.limit "5")), .own (.build (.search (.nearVector [] none))), .own (.read .size),
    .own (.build (.search (.byKeyword "dune" [])))]

/-- The same vector after a vector that is refused, and before sort keys. -/
def vectorAndSorting : List (Event ScriptedBackend) :=
  [.own (.build (.search (.nearVector [.nan] none))), .own (.build (.search (.nearVector [] none))),
    .own (.build (.sort ["title"] []))]

/-- Both runs ask for the same count. -/
theorem count_isolated_vectors :
    let session := start ⟨"Article", ["title"]⟩ ⟨Binary64.finite false ⟨0, -1074, by decide⟩, 25⟩
      ({} : ScriptedBackend)
    (session.after vectorAndSorting).query.countRequest
      = (session.after vectorAndKeyword).query.countRequest := by
  intro session
  obtain ⟨-, -, -, hsame⟩ := count_isolated ⟨"Article", ["title"]⟩
    ⟨Binary64.finite false ⟨0, -1074, by decide⟩, 25⟩ ({} : ScriptedBackend) vectorAndKeyword
  refine hsame ScriptedBackend {} vectorAndSorting fun part hpart => ?_
  obtain rfl | rfl | rfl | rfl : part = .condition ∨ part = .phrases ∨ part = .vector ∨ part = .object := by
    simpa [Query.Part.counted] using hpart
  all_goals rfl

end Session

end VectorQuery
