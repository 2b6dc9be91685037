import Mathlib
import VectorQuery.Backend.Scripted
import VectorQuery.Proofs.Session.Steps

/-!
# The loaded objects are current

What a session has loaded comes from its last answered fetch, and that fetch is the one it would
send now.  Neither its state nor the log of a shared backend tells which fetch that was, so the run
is repeated on a backend that notes the fetches of this session that it answers.

* `Witness` — a backend with a note of the answered fetches;
* `Session.erase_run`, `Session.erase_after` — the notes change nothing in a run;
* `Session.Current` — the loaded objects are those of the last answered fetch, and the request is
  still the same;
* `Session.Step.current` — every step keeps this;
* `Session.loaded_current` — **it holds after any run**.
-/

namespace VectorQuery

variable {σ : Type}

/-! ### Notes of the answered fetches -/

/-- A backend with a note of the fetches that it answers, oldest first. -/
structure Witness (σ : Type) where
  inner : σ
  answered : List (FetchRequest × List Json.Fields) := []

instance [Backend σ] : Backend (Witness σ) where
  fetch request witness :=
    match Backend.fetch request witness.inner with
    | (.ok batch, inner) => (.ok batch, ⟨inner, witness.answered ++ [(request, batch)]⟩)
    | (.error fault, inner) => (.error fault, ⟨inner, witness.answered⟩)
  count request witness :=
    ((Backend.count request witness.inner).1,
      ⟨(Backend.count request witness.inner).2, witness.answered⟩)
  delete request witness :=
    ((Backend.delete request witness.inner).1,
      ⟨(Backend.delete request witness.inner).2, witness.answered⟩)

/-- The same event where the answered fetches are noted; others leave the notes alone. -/
def Event.noted : Event σ → Event (Witness σ)
  | .own operation => .own operation
  | .foreign change => .foreign fun witness => { witness with inner := change witness.inner }

namespace Witness

variable [Backend σ] {request : FetchRequest} {witness : Witness σ} {inner : σ}

theorem fetch_ok {batch : List Json.Fields}
    (h : Backend.fetch request witness.inner = (.ok batch, inner)) :
    Backend.fetch request witness = (.ok batch, ⟨inner, witness.answered ++ [(request, batch)]⟩) := by
  show (match Backend.fetch request witness.inner with | (.ok _, _) => _ | (.error _, _) => _) = _
  rw [h]

theorem fetch_error {fault : Fault}
    (h : Backend.fetch request witness.inner = (.error fault, inner)) :
    Backend.fetch request witness = (.error fault, ⟨inner, witness.answered⟩) := by
  show (match Backend.fetch request witness.inner with | (.ok _, _) => _ | (.error _, _) => _) = _
  rw [h]

/-- An answered fetch is noted, a failed one is not. -/
theorem answered_fetch {answer : Except Fault (List Json.Fields)} {next : Witness σ}
    (h : Backend.fetch request witness = (answer, next)) :
    next.answered = match answer with
      | .ok batch => witness.answered ++ [(request, batch)]
      | .error _ => witness.answered := by
  cases hinner : Backend.fetch request witness.inner with
  | mk found inner =>
    cases found with
    | ok batch =>
      rw [fetch_ok hinner] at h
      cases h
      rfl
    | error fault =>
      rw [fetch_error hinner] at h
      cases h
      rfl

end Witness

namespace Session

/-! ### What is current -/

/-- What is loaded are the objects of the last answered fetch, and the session would send the same
request again. -/
def Current (session : Session (Witness σ)) : Prop :=
  ∀ objects, session.loaded = some objects → ∃ request batch,
    session.backend.answered.getLast? = some (request, batch)
    ∧ session.query.fetchRequest = .ok request
    ∧ objects = batch.map fun raw => StoredObject.ofFields raw session.query.selection.HasFields

theorem current_of_not_loaded {session : Session (Witness σ)} (h : session.loaded = none) :
    session.Current := by
  intro objects hobjects
  rw [h] at hobjects
  cases hobjects

/-- Nothing that leaves the query, the loaded objects and the notes alone makes them old. -/
theorem Current.backend {session : Session (Witness σ)} (h : session.Current) {witness : Witness σ}
    (hanswered : witness.answered = session.backend.answered) :
    Current { session with backend := witness } := by
  intro objects hobjects
  obtain ⟨request, batch, hlast, hrest⟩ := h objects hobjects
  exact ⟨request, batch, by rw [hanswered]; exact hlast, hrest⟩

/-! ### The notes change nothing -/

/-- The session without the notes. -/
def erase (session : Session (Witness σ)) : Session σ where
  query := session.query
  loaded := session.loaded
  backend := session.backend.inner

variable [Backend σ]

theorem erase_objects (session : Session (Witness σ)) :
    session.erase.objects = (session.objects.1, session.objects.2.erase) := by
  obtain ⟨query, loaded, witness⟩ := session
  cases loaded with
  | some objects => rfl
  | none =>
    cases hrequest : query.fetchRequest with
    | error fault => simp [objects, erase, hrequest]
    | ok request =>
      cases hinner : Backend.fetch request witness.inner with
      | mk found inner =>
        cases found with
        | ok batch =>
          simp only [objects, erase, hrequest, hinner, Witness.fetch_ok hinner]
          rfl
        | error fault => simp only [objects, erase, hrequest, hinner, Witness.fetch_error hinner]

theorem erase_deleteAll (session : Session (Witness σ)) :
    session.erase.deleteAll = (session.deleteAll.1, session.deleteAll.2.erase) := by
  obtain ⟨query, loaded, witness⟩ := session
  cases hrequest : query.deleteRequest? with
  | none => simp [deleteAll, erase, hrequest]
  | some request =>
    cases hinner : Backend.delete request witness.inner with
    | mk found inner =>
      have hnoted : Backend.delete request witness = (found, ⟨inner, witness.answered⟩) := by
        show ((Backend.delete request witness.inner).1,
          Witness.mk (Backend.delete request witness.inner).2 _) = _
        rw [hinner]
      cases found with
      | error fault => simp only [deleteAll, erase, hrequest, hinner, hnoted]
      | ok body =>
        simp only [deleteAll, erase, hrequest, hinner, hnoted]
        cases DeleteSummary.ofBody body <;> rfl

/-- An operation answers the same with the notes and without, and the sessions stay the same. -/
theorem erase_run (session : Session (Witness σ)) (operation : Operation) :
    session.erase.run operation = ((session.run operation).1, (session.run operation).2.erase) := by
  cases operation with
  | build call =>
    have hquery : session.erase.query = session.query := rfl
    simp only [run, Change.on, build_eq, hquery]
    cases Query.perform call session.query <;> rfl
  | read view =>
    simp only [run, erase_objects]
  | request => rfl
  | count => rfl
  | deleteAll => simp only [run, erase_deleteAll]

theorem erase_occur (session : Session (Witness σ)) (event : Event σ) :
    (session.occur event.noted).erase = session.erase.occur event := by
  cases event with
  | own operation => exact (congrArg Prod.snd (erase_run session operation)).symm
  | foreign change => rfl

/-- A run with the notes is the run without them. -/
theorem erase_after (session : Session (Witness σ)) (events : List (Event σ)) :
    (session.after (events.map Event.noted)).erase = session.erase.after events := by
  induction events generalizing session with
  | nil => rfl
  | cons event events ih =>
    show ((session.occur event.noted).after (events.map Event.noted)).erase
      = (session.erase.occur event).after events
    rw [ih, erase_occur]

/-! ### Runs -/

/-- Every step keeps the loaded objects current. -/
theorem Step.current {session next : Session (Witness σ)} (h : Step session next)
    (hcurrent : session.Current) :
    next.Current := by
  cases h with
  | idle => exact hcurrent
  | built => exact current_of_not_loaded rfl
  | @fetched request batch witness hloaded hrequest hfetch =>
    intro objects hobjects
    have hanswered : witness.answered = session.backend.answered ++ [(request, batch)] :=
      Witness.answered_fetch hfetch
    refine ⟨request, batch, ?_, hrequest, ?_⟩
    · show witness.answered.getLast? = some (request, batch)
      rw [hanswered, List.getLast?_concat]
    · exact (Option.some.inj hobjects).symm.trans (session.parse_eq batch)
  | fetchFailed _ _ hfetch => exact hcurrent.backend (Witness.answered_fetch hfetch)
  | counted => exact hcurrent.backend rfl
  | deleteFailed => exact hcurrent.backend rfl
  | deleted => exact current_of_not_loaded rfl

theorem Current.occur {session : Session (Witness σ)} (h : session.Current) (event : Event σ) :
    (session.occur event.noted).Current := by
  cases event with
  | own operation => exact (session.run_step operation).current h
  | foreign change => exact h.backend rfl

theorem Current.after {session : Session (Witness σ)} (h : session.Current)
    (events : List (Event σ)) :
    (session.after (events.map Event.noted)).Current := by
  induction events generalizing session with
  | nil => exact h
  | cons event events ih =>
    show ((session.occur event.noted).after (events.map Event.noted)).Current
    exact ih (h.occur event)

/-- **What is loaded is current after any run.**  The run with notes is the same run; and if objects
are loaded, then the last fetch that this session sent and got an answer to was the request that the
query comes to now, and the objects are what that answer held, read with the present selection. -/
theorem loaded_current (collection : Collection) (defaults : Defaults) (backend : σ)
    (events : List (Event σ)) :
    let session := (start collection defaults backend).after events
    let noted := (start collection defaults (Witness.mk backend [])).after (events.map Event.noted)
    noted.erase = session ∧
    (session.isLoaded = true → ∃ request batch,
      noted.backend.answered.getLast? = some (request, batch)
      ∧ session.query.fetchRequest = .ok request
      ∧ session.loaded
        = some (batch.map fun raw => StoredObject.ofFields raw session.query.selection.HasFields)) := by
  intro session noted
  have herase : noted.erase = session := erase_after _ events
  refine ⟨herase, ?_⟩
  rw [← herase]
  intro hloaded
  have hcurrent : noted.Current := (current_of_not_loaded rfl).after events
  obtain ⟨objects, hobjects⟩ := Option.isSome_iff_exists.1 hloaded
  obtain ⟨request, batch, hlast, hrequest, rfl⟩ := hcurrent objects hobjects
  exact ⟨request, batch, hlast, hrequest, hobjects⟩

/-- A backend with one object to give out. -/
def oneObject : ScriptedBackend := { objects := [[[("title", .text "first")]]] }

/-- A page size, a read, a call that fails, a foreign failure in the queue and a count that meets
it. -/
def readAndFail : List (Event ScriptedBackend) :=
  [.own (.build (.limit "5")), .own (.read .size), .own (.build (.limit "-1")),
    .foreign fun backend => backend.pushFailure (.server "busy"), .own .count]

/-- A call and a count that fail leave what is loaded in place, and it is still what was fetched
last. -/
theorem loaded_current_readAndFail :
    let session := (start ⟨"Article", ["title"]⟩ ⟨.nan, 25⟩ oneObject).after readAndFail
    session.isLoaded = true ∧ ∃ (request : FetchRequest) (batch : List Json.Fields),
      session.query.fetchRequest = .ok request
      ∧ session.loaded
        = some (batch.map fun raw => StoredObject.ofFields raw session.query.selection.HasFields) := by
  have hloaded :
      ((start ⟨"Article", ["title"]⟩ ⟨.nan, 25⟩ oneObject).after readAndFail).isLoaded = true := by
    decide
  obtain ⟨request, batch, -, hrequest, hobjects⟩ :=
    (loaded_current ⟨"Article", ["title"]⟩ ⟨.nan, 25⟩ oneObject readAndFail).2 hloaded
  exact ⟨hloaded, request, batch, hrequest, hobjects⟩

end Session

end VectorQuery
