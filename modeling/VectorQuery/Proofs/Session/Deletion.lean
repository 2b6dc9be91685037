import Mathlib
import VectorQuery.Backend.Scripted
import VectorQuery.Proofs.Json.Record
import VectorQuery.Proofs.Outcome
import VectorQuery.Proofs.Session.Steps

/-!
# Deletes from end to end

A delete may fail for want of a condition, in the backend, or because the body of the answer does
not report a delete.  Which bodies do is said here without the reader.

* `DeleteSummary.Reports` — a body reports a delete with these counters;
* `DeleteSummary.ofBody_eq_ok_iff` — the bodies that are read are those that report a delete;
* `DeleteSummary.server_of_ofBody` — all others are faults of the server;
* `Session.deleteAll_outcome` — **a delete sends one request or none, and drops the loaded objects
  exactly when its answer reports it done**;
* `Session.log_deleteAll` — what a delete adds to the log of the scripted backend.
-/

namespace VectorQuery

/-! ### Bodies -/

namespace DeleteSummary

/-- What stands for a counter: nothing for zero, or the integer itself. -/
inductive Counter : Option Json → UInt64 → Prop
  | absent : Counter none 0
  | present (count : UInt64) : Counter (some (.int count.toNat)) count

/-- A document tells the four counters, in the fields of an object or as an array in their order. -/
inductive Tells : Json → DeleteSummary → Prop
  | named {fields : Json.Fields} {summary : DeleteSummary}
      (hmatched : Counter (Json.Fields.get? "matches" fields) summary.matched)
      (hsuccessful : Counter (Json.Fields.get? "successful" fields) summary.successful)
      (hfailed : Counter (Json.Fields.get? "failed" fields) summary.failed)
      (hlimit : Counter (Json.Fields.get? "limit" fields) summary.limit) :
      Tells (.object fields) summary
  | listed {items : List Json} {summary : DeleteSummary} (hlength : items.length ≤ 4)
      (hmatched : Counter items[0]? summary.matched)
      (hsuccessful : Counter items[1]? summary.successful)
      (hfailed : Counter items[2]? summary.failed)
      (hlimit : Counter items[3]? summary.limit) :
      Tells (.array items) summary

/-- A body reports a delete: it has fields, none of them an error, and its results tell the counters.
Results that are not there tell that all counters are zero. -/
inductive Reports : Json → DeleteSummary → Prop
  | results {fields : Json.Fields} {summary : DeleteSummary} (hfields : fields ≠ [])
      (herror : Json.Fields.get? "error" fields = none)
      (hresults : Tells ((Json.Fields.get? "results" fields).getD (.object [])) summary) :
      Reports (.object fields) summary

theorem counter_iff {name : String} {fields : Json.Fields} {count : UInt64} :
    Json.optional? Json.word64? 0 name fields = some count
      ↔ Counter (Json.Fields.get? name fields) count := by
  rw [Json.optional?]
  cases Json.Fields.get? name fields with
  | none =>
    constructor
    · intro h
      cases h
      exact .absent
    · intro h
      cases h
      rfl
  | some document =>
    show document.word64? = some count ↔ _
    rw [Json.word64?_eq_some_iff]
    constructor
    · rintro rfl
      exact .present count
    · intro h
      cases h
      rfl

/-- The counters are read from the parts of a record. -/
theorem ofDocument?_parts {document : Json} {summary : DeleteSummary} :
    ofDocument? document = some summary
      ↔ ∃ parts, document.record? ["matches", "successful", "failed", "limit"] = some parts
        ∧ Counter (Json.Fields.get? "matches" parts) summary.matched
        ∧ Counter (Json.Fields.get? "successful" parts) summary.successful
        ∧ Counter (Json.Fields.get? "failed" parts) summary.failed
        ∧ Counter (Json.Fields.get? "limit" parts) summary.limit := by
  simp only [ofDocument?, Option.bind_eq_bind, Option.bind_eq_some_iff, counter_iff]
  constructor
  · rintro ⟨parts, hparts, matched, hmatched, successful, hsuccessful, failed, hfailed, limit, hlimit, h⟩
    cases h
    exact ⟨parts, hparts, hmatched, hsuccessful, hfailed, hlimit⟩
  · rintro ⟨parts, hparts, hmatched, hsuccessful, hfailed, hlimit⟩
    exact ⟨parts, hparts, _, hmatched, _, hsuccessful, _, hfailed, _, hlimit, rfl⟩

/-- The documents that are read are those that tell the counters. -/
theorem ofDocument?_eq_some_iff {document : Json} {summary : DeleteSummary} :
    ofDocument? document = some summary ↔ Tells document summary := by
  rw [ofDocument?_parts]
  cases document with
  | object fields =>
    constructor
    · rintro ⟨parts, hparts, hmatched, hsuccessful, hfailed, hlimit⟩
      cases hparts
      exact .named hmatched hsuccessful hfailed hlimit
    · intro h
      cases h with
      | named hmatched hsuccessful hfailed hlimit =>
        exact ⟨fields, rfl, hmatched, hsuccessful, hfailed, hlimit⟩
  | array items =>
    let names := ["matches", "successful", "failed", "limit"]
    have hnames : names.Nodup := by decide
    have hfirst : Json.Fields.get? "matches" (names.zip items) = items[0]? :=
      Json.get?_zip hnames items rfl
    have hsecond : Json.Fields.get? "successful" (names.zip items) = items[1]? :=
      Json.get?_zip hnames items rfl
    have hthird : Json.Fields.get? "failed" (names.zip items) = items[2]? :=
      Json.get?_zip hnames items rfl
    have hfourth : Json.Fields.get? "limit" (names.zip items) = items[3]? :=
      Json.get?_zip hnames items rfl
    constructor
    · rintro ⟨parts, hparts, hmatched, hsuccessful, hfailed, hlimit⟩
      rw [Json.record?] at hparts
      split at hparts
      · rename_i hlength
        cases hparts
        exact .listed hlength (hfirst ▸ hmatched) (hsecond ▸ hsuccessful) (hthird ▸ hfailed)
          (hfourth ▸ hlimit)
      · cases hparts
    · intro h
      cases h with
      | listed hlength hmatched hsuccessful hfailed hlimit =>
        exact ⟨names.zip items, if_pos hlength, hfirst ▸ hmatched, hsecond ▸ hsuccessful,
          hthird ▸ hfailed, hfourth ▸ hlimit⟩
  | _ =>
    constructor
    · rintro ⟨parts, hparts, -⟩
      cases hparts
    · intro h
      cases h

/-- The bodies that give a summary are those that report a delete. -/
theorem ofBody_eq_ok_iff {body : Json} {summary : DeleteSummary} :
    ofBody body = .ok summary ↔ Reports body summary := by
  constructor
  · intro h
    rw [ofBody.eq_def] at h
    split at h
    · cases h
    · cases h
    · rename_i fields hfields
      split at h
      · cases h
      · rename_i herror
        split at h
        · rename_i found hfound
          cases h
          exact .results hfields herror (ofDocument?_eq_some_iff.1 hfound)
        · cases h
    · cases h
  · intro h
    cases h with
    | @results fields _ hfields herror hresults =>
      cases fields with
      | nil => exact absurd rfl hfields
      | cons field fields =>
        simp only [ofBody, herror, ofDocument?_eq_some_iff.2 hresults]

/-- What a delete answers to a body is a summary iff the body reports it. -/
theorem answer_eq_ok_iff {body : Json} {result : Answer} :
    (ofBody body).map Answer.summary = .ok result
      ↔ ∃ summary, Reports body summary ∧ result = .summary summary := by
  rw [Outcome.map_eq_ok_iff]
  constructor
  · rintro ⟨summary, hbody, rfl⟩
    exact ⟨summary, ofBody_eq_ok_iff.1 hbody, rfl⟩
  · rintro ⟨summary, hreports, rfl⟩
    exact ⟨summary, ofBody_eq_ok_iff.2 hreports, rfl⟩

/-- Any other body is a fault of the server; if it is empty, the delete was not allowed. -/
theorem server_of_ofBody {body : Json} {fault : Fault} (h : ofBody body = .error fault) :
    ∃ detail, fault = .server detail
      ∧ (body = .null ∨ body = .object [] → detail = "Unauthorized") := by
  rw [ofBody.eq_def] at h
  split at h
  · cases h
    exact ⟨_, rfl, fun _ => rfl⟩
  · cases h
    exact ⟨_, rfl, fun _ => rfl⟩
  · rename_i fields hfields
    have hfull : ∀ detail : String,
        Json.object fields = .null ∨ Json.object fields = .object [] → detail = "Unauthorized" := by
      intro detail hempty
      rcases hempty with hempty | hempty
      · cases hempty
      · cases hempty
        exact absurd rfl hfields
    split at h
    · cases h
      exact ⟨_, rfl, hfull _⟩
    · split at h
      · cases h
      · cases h
        exact ⟨_, rfl, hfull _⟩
  · rename_i hnull hempty hobject
    cases h
    refine ⟨_, rfl, ?_⟩
    rintro (rfl | rfl)
    · exact absurd rfl hnull
    · exact absurd rfl (hobject _)

end DeleteSummary

/-! ### Sessions -/

namespace Session

variable {σ : Type} [Backend σ]

/-- **Deletes from end to end.**  In every session that can come about, on any backend: without a
condition nothing is sent and nothing changes.  With one, the request for the collection and the
document of the condition is sent, once.  A failure of the backend is passed on.  The answer is a
summary iff the body reports one, and then the loaded objects are dropped; any other body is a fault
of the server.  A delete that fails keeps what is loaded, and none changes the query. -/
theorem deleteAll_outcome (collection : Collection) (defaults : Defaults) (backend : σ)
    (events : List (Event σ)) :
    let session := (start collection defaults backend).after events
    let answer := (session.run .deleteAll).1
    let next := (session.run .deleteAll).2
    next.query = session.query
    ∧ match session.query.condition with
      | none => answer = .error .missingCondition ∧ next = session
      | some condition =>
        let request : DeleteRequest := ⟨collection.name, condition.document⟩
        next.backend = (Backend.delete request session.backend).2
        ∧ match (Backend.delete request session.backend).1 with
          | .error fault => answer = .error fault ∧ next.loaded = session.loaded
          | .ok body =>
            (∀ result, answer = .ok result
              ↔ ∃ summary, DeleteSummary.Reports body summary ∧ result = .summary summary)
            ∧ (∀ result, answer = .ok result → next.loaded = none)
            ∧ ∀ fault, answer = .error fault →
              next.loaded = session.loaded
              ∧ ∃ detail, fault = .server detail
                ∧ (body = .null ∨ body = .object [] → detail = "Unauthorized") := by
  intro session answer next
  have hcollection : session.query.collection = collection :=
    collection_after (start collection defaults backend) events
  have hdeletion := session.deletion
  have hanswer : answer = session.deleteAll.1.map .summary := rfl
  have hnext : next = session.deleteAll.2 := rfl
  rw [hanswer, hnext]
  generalize session.deleteAll.1 = outcome, session.deleteAll.2 = last at hdeletion ⊢
  cases hcondition : session.query.condition with
  | none =>
    have hnone : session.query.deleteRequest? = none := Option.map_eq_none_iff.2 hcondition
    cases hdeletion with
    | refused => exact ⟨rfl, rfl, rfl⟩
    | failed hrequest
    | rejected hrequest
    | done hrequest =>
      rw [hnone] at hrequest
      cases hrequest
  | some condition =>
    have hsome : session.query.deleteRequest? = some ⟨collection.name, condition.document⟩ := by
      rw [Query.deleteRequest?, hcondition, hcollection]
      rfl
    dsimp only
    cases hdeletion with
    | refused hrequest =>
      rw [hsome] at hrequest
      cases hrequest
    | failed hrequest h =>
      rw [hsome] at hrequest
      cases hrequest
      rw [h]
      exact ⟨rfl, rfl, rfl, rfl⟩
    | rejected hrequest h hbody =>
      rw [hsome] at hrequest
      cases hrequest
      rw [h, ← hbody]
      refine ⟨rfl, rfl, fun result => DeleteSummary.answer_eq_ok_iff, ?_, ?_⟩
      · intro result hresult
        rw [hbody] at hresult
        cases hresult
      · intro found hfound
        rw [hbody] at hfound
        cases hfound
        exact ⟨rfl, DeleteSummary.server_of_ofBody hbody⟩
    | done hrequest h hbody =>
      rw [hsome] at hrequest
      cases hrequest
      rw [h, ← hbody]
      refine ⟨rfl, rfl, fun result => DeleteSummary.answer_eq_ok_iff, fun _ _ => rfl, ?_⟩
      intro fault hfault
      rw [hbody] at hfault
      cases hfault

/-- On the scripted backend, the one request is what the log has more. -/
theorem log_deleteAll (session : Session ScriptedBackend) :
    (session.run .deleteAll).2.backend.log
      = session.backend.log ++ (session.query.deleteRequest?.map Request.delete).toList := by
  have hnext : (session.run .deleteAll).2 = session.deleteAll.2 := rfl
  have hdeletion := session.deletion
  rw [hnext]
  generalize session.deleteAll.1 = outcome, session.deleteAll.2 = last at hdeletion ⊢
  cases hdeletion with
  | refused hrequest =>
    rw [hrequest]
    exact (List.append_nil _).symm
  | failed hrequest h
  | rejected hrequest h
  | done hrequest h =>
    rw [hrequest]
    exact ScriptedBackend.log_of_delete h

end Session

end VectorQuery
