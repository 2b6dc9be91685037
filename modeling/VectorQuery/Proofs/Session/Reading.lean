import Mathlib
import VectorQuery.Backend.Scripted
import VectorQuery.Proofs.Selection.Writable
import VectorQuery.Proofs.Session.Steps

/-!
# A read fails in the backend only

The request of a query needs a field list, and a nested selection with a leaf that is no text has
none.  A call that would leave such a leaf is refused, so in every session that can come about the
request can be made; a read that fails has sent it, and has the fault from the backend.

* `Backend.Log` — a log in which a backend enters each request, whatever it answers;
* `Session.selectable_after` — the leaves of the nested selection are texts;
* `Session.Loading.of_error` — a read that fails has sent the request, or there is none;
* `Session.reads_fail_in_backend` — **a request can always be made, and a read fails only once the
  backend has failed on it**.
-/

namespace VectorQuery

/-! ### Logs -/

/-- A log of a backend: each request is entered at its end, whatever comes of it. -/
structure Backend.Log (σ : Type) [Backend σ] where
  requests : σ → List Request
  fetch : ∀ request backend,
    requests (Backend.fetch request backend).2 = requests backend ++ [.fetch request]
  count : ∀ request backend,
    requests (Backend.count request backend).2 = requests backend ++ [.count request]
  delete : ∀ request backend,
    requests (Backend.delete request backend).2 = requests backend ++ [.delete request]

/-- The log of the scripted backend. -/
def ScriptedBackend.logbook : Backend.Log ScriptedBackend where
  requests := log
  fetch := log_fetch
  count := log_count
  delete := log_delete

namespace Session

variable {σ : Type} [Backend σ]

/-! ### Failures -/

/-- The leaves of the nested selection are texts, whatever the calls have tried to select. -/
theorem selectable_after {session : Session σ} (hrendered : session.query.Rendered)
    (events : List (Event σ)) :
    ∀ field ∈ (session.after events).query.selection.nested, Selection.Selectable field.2 :=
  Selection.exists_fields_iff.1 (rendered_after hrendered events)

/-- A read that fails leaves nothing loaded; either there was no request to send, or the backend has
failed on it. -/
theorem Loading.of_error {session next : Session σ} {fault : Fault}
    (h : Loading session (.error fault) next) :
    session.loaded = none
    ∧ (session.query.fetchRequest = .error fault
      ∨ ∃ request backend, session.query.fetchRequest = .ok request
        ∧ Backend.fetch request session.backend = (.error fault, backend)
        ∧ next = { session with backend }) := by
  cases h with
  | unwritten hloaded hrequest => exact ⟨hloaded, Or.inl hrequest⟩
  | failed hloaded hrequest h => exact ⟨hloaded, Or.inr ⟨_, _, hrequest, h, rfl⟩⟩

/-- A read fails as the loading does. -/
theorem loading_of_read_error {session next : Session σ} {view : Read} {fault : Fault}
    (h : session.run (.read view) = (.error fault, next)) : Loading session (.error fault) next := by
  have hloading := session.loading
  rw [run] at h
  generalize session.objects = result at h hloading
  obtain ⟨answer, last⟩ := result
  cases answer with
  | ok objects => cases h
  | error found =>
    cases h
    exact hloading

/-- **A read fails in the backend only.**  In every session that can come about, the leaves of the
nested selection are texts, and the request for the objects can be made.  If a read fails, nothing
was loaded, this request has been sent, once, and the fault is the backend's answer to it; nothing
but the backend has changed. -/
theorem reads_fail_in_backend (collection : Collection) (defaults : Defaults) (backend : σ)
    (events : List (Event σ)) :
    let session := (start collection defaults backend).after events
    (∀ field ∈ session.query.selection.nested, Selection.Selectable field.2)
    ∧ ∃ request, session.query.fetchRequest = .ok request
      ∧ ∀ view fault next, session.run (.read view) = (.error fault, next) →
        session.loaded = none
        ∧ Backend.fetch request session.backend = (.error fault, next.backend)
        ∧ next = { session with backend := next.backend }
        ∧ ∀ log : Backend.Log σ,
          log.requests next.backend = log.requests session.backend ++ [.fetch request] := by
  intro session
  have hnew : (start collection defaults backend).query.Rendered :=
    Query.rendered_new collection defaults
  obtain ⟨request, hrequest⟩ := (rendered_after hnew events).request
  refine ⟨selectable_after hnew events, request, hrequest, ?_⟩
  intro view fault next hread
  obtain ⟨hloaded, hunwritten | ⟨sent, last, hsent, hfetch, rfl⟩⟩ :=
    (loading_of_read_error hread).of_error
  · rw [hrequest] at hunwritten
    cases hunwritten
  · rw [hrequest] at hsent
    cases hsent
    refine ⟨hloaded, hfetch, rfl, fun log => ?_⟩
    rw [← log.fetch, hfetch]

/-- A selection that is kept, and one that is refused for a number below it. -/
def selections : List (Event ScriptedBackend) :=
  [.own (.build (.select [] (some (.object [("author", .text "name")])))),
    .own (.build (.select ["title"] (some (.object [("author", .array [.text "name", .int 1])]))))]

/-- The read after them sends the first selection, and passes on that the backend is busy. -/
theorem reads_fail_in_backend_busy :
    let session := (start ⟨"Article", ["title"]⟩ ⟨.nan, 25⟩
      ({ failures := [.server "busy"] } : ScriptedBackend)).after selections
    (session.run (.read .size)).1 = .error (.server "busy")
    ∧ ∃ request, session.query.fetchRequest = .ok request
      ∧ (session.run (.read .size)).2.backend.log = [.fetch request] := by
  intro session
  obtain ⟨-, request, hrequest, hreads⟩ := reads_fail_in_backend ⟨"Article", ["title"]⟩ ⟨.nan, 25⟩
    ({ failures := [.server "busy"] } : ScriptedBackend) selections
  have hread : (session.run (.read .size)).1 = .error (.server "busy") := rfl
  obtain ⟨-, -, -, hlog⟩ := hreads .size (.server "busy") (session.run (.read .size)).2
    (Prod.ext hread rfl)
  exact ⟨hread, request, hrequest, hlog ScriptedBackend.logbook⟩

end Session

end VectorQuery
