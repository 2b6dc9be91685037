import VectorQuery.Fault
import VectorQuery.Json.Printer
import VectorQuery.Json.Shape

/-!
# Delete summaries

What a backend says after a delete, read from the body of its answer.

* `DeleteSummary` — four counters.
* `DeleteSummary.ofBody` — the summary of a body, or the fault that the body tells.
-/

namespace VectorQuery

/-- What a delete has done. -/
structure DeleteSummary where
  matched : UInt64 := 0
  successful : UInt64 := 0
  failed : UInt64 := 0
  limit : UInt64 := 0
deriving DecidableEq

namespace DeleteSummary

/-- The counters of a document; one that is not there is zero. -/
def ofDocument? (document : Json) : Option DeleteSummary := do
  let parts ← document.record? ["matches", "successful", "failed", "limit"]
  let matched ← Json.optional? Json.word64? 0 "matches" parts
  let successful ← Json.optional? Json.word64? 0 "successful" parts
  let failed ← Json.optional? Json.word64? 0 "failed" parts
  let limit ← Json.optional? Json.word64? 0 "limit" parts
  return ⟨matched, successful, failed, limit⟩

/-- The messages of an error: the error itself if it is a text, or the messages of its items, or its own. -/
def messages : Json → List String
  | .text message => [message]
  | .array items => items.filterMap fun item => (item.field? "message").bind Json.text?
  | .object fields => ((Json.Fields.get? "message" fields).bind Json.text?).toList
  | _ => []

/-- The text of an error: its messages, or its document if it has none. -/
def errorText (error : Json) : String :=
  match messages error with
  | [] => error.compact
  | texts => "; ".intercalate texts

/-- The fault of a body that is no answer to a delete. -/
def unexpected (reason : String) : Fault := .server ("unexpected delete response: " ++ reason)

/-- The summary of a body. An empty body means that the delete was not allowed; an error in the body counts
before its results. -/
def ofBody : Json → Except Fault DeleteSummary
  | .null => .error (.server "Unauthorized")
  | .object [] => .error (.server "Unauthorized")
  | .object fields =>
    match Json.Fields.get? "error" fields with
    | some error => .error (.server (errorText error))
    | none =>
      match ofDocument? ((Json.Fields.get? "results" fields).getD (.object [])) with
      | some summary => .ok summary
      | none => .error (unexpected unstatedReason)
  | other => .error (unexpected other.compact)

end DeleteSummary

end VectorQuery
