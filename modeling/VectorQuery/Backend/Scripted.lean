import VectorQuery.Backend.Basic

/-!
# The scripted backend

A backend that answers from queues and remembers what it was asked, for trying queries out.

* `ScriptedBackend` — a queue of answers for each kind of request, a queue of failures, and the log.
* `pushObjects`, `pushCount`, `pushBody`, `pushFailure` — one more entry at the end of a queue.
* `ScriptedBackend.receive` — a request is logged; if a failure is queued, it is the answer.
* `log_fetch`, `log_count`, `log_delete` — every request is logged, failed or not.
* `lastFetch?`, `fetches`, `counts`, `deletes` — what the log tells.
-/

namespace VectorQuery

/-- Queued answers and failures, oldest first, and the requests so far. -/
structure ScriptedBackend where
  objects : List (List Json.Fields) := []
  totals : List UInt64 := []
  bodies : List Json := []
  failures : List Fault := []
  log : List Request := []

namespace ScriptedBackend

/-! ### Queueing -/

/-- The objects of a document: the objects among the items of an array. -/
def batchOf : Json → List Json.Fields
  | .array items => items.filterMap Json.fields?
  | _ => []

/-- One more answer to a fetch. -/
def pushObjects (backend : ScriptedBackend) (document : Json) : ScriptedBackend :=
  { backend with objects := backend.objects ++ [batchOf document] }

/-- One more answer to a count. -/
def pushCount (backend : ScriptedBackend) (total : UInt64) : ScriptedBackend :=
  { backend with totals := backend.totals ++ [total] }

/-- One more answer to a delete. -/
def pushBody (backend : ScriptedBackend) (body : Json) : ScriptedBackend :=
  { backend with bodies := backend.bodies ++ [body] }

/-- One more failure, for the next request of any kind that no earlier failure answers. -/
def pushFailure (backend : ScriptedBackend) (fault : Fault) : ScriptedBackend :=
  { backend with failures := backend.failures ++ [fault] }

/-! ### Answering -/

/-- A request is logged, and the oldest failure is given out if there is one. -/
def receive (request : Request) (backend : ScriptedBackend) : Except Fault Unit × ScriptedBackend :=
  let logged := { backend with log := backend.log ++ [request] }
  match backend.failures with
  | [] => (.ok (), logged)
  | fault :: others => (.error fault, { logged with failures := others })

/-- The oldest batch, or none of the objects there could be. -/
def fetch (request : FetchRequest) (backend : ScriptedBackend) :
    Except Fault (List Json.Fields) × ScriptedBackend :=
  match receive (.fetch request) backend with
  | (.error fault, next) => (.error fault, next)
  | (.ok (), next) => (.ok (next.objects.headD []), { next with objects := next.objects.drop 1 })

/-- The oldest total, or zero. -/
def count (request : CountRequest) (backend : ScriptedBackend) : Except Fault UInt64 × ScriptedBackend :=
  match receive (.count request) backend with
  | (.error fault, next) => (.error fault, next)
  | (.ok (), next) => (.ok (next.totals.headD 0), { next with totals := next.totals.drop 1 })

/-- The oldest body, or null. -/
def delete (request : DeleteRequest) (backend : ScriptedBackend) : Except Fault Json × ScriptedBackend :=
  match receive (.delete request) backend with
  | (.error fault, next) => (.error fault, next)
  | (.ok (), next) => (.ok (next.bodies.headD .null), { next with bodies := next.bodies.drop 1 })

instance : Backend ScriptedBackend := ⟨fetch, count, delete⟩

/-! ### The log -/

/-- The fetch that a request is. -/
def fetch? : Request → Option FetchRequest
  | .fetch request => some request
  | _ => none

/-- Whether a request is a fetch. -/
def isFetch : Request → Bool
  | .fetch _ => true
  | _ => false

/-- Whether a request is a count. -/
def isCount : Request → Bool
  | .count _ => true
  | _ => false

/-- Whether a request is a delete. -/
def isDelete : Request → Bool
  | .delete _ => true
  | _ => false

/-- The latest fetch. -/
def lastFetch? (backend : ScriptedBackend) : Option FetchRequest := backend.log.reverse.findSome? fetch?

/-- The number of fetches. -/
def fetches (backend : ScriptedBackend) : Nat := backend.log.countP isFetch

/-- The number of counts. -/
def counts (backend : ScriptedBackend) : Nat := backend.log.countP isCount

/-- The number of deletes. -/
def deletes (backend : ScriptedBackend) : Nat := backend.log.countP isDelete

theorem log_receive (request : Request) (backend : ScriptedBackend) :
    (receive request backend).2.log = backend.log ++ [request] := by
  rw [receive]
  cases backend.failures <;> rfl

@[simp] theorem log_fetch (request : FetchRequest) (backend : ScriptedBackend) :
    (fetch request backend).2.log = backend.log ++ [.fetch request] := by
  rw [← log_receive, fetch]
  split <;> rename_i h <;> rw [h]

@[simp] theorem log_count (request : CountRequest) (backend : ScriptedBackend) :
    (count request backend).2.log = backend.log ++ [.count request] := by
  rw [← log_receive, count]
  split <;> rename_i h <;> rw [h]

@[simp] theorem log_delete (request : DeleteRequest) (backend : ScriptedBackend) :
    (delete request backend).2.log = backend.log ++ [.delete request] := by
  rw [← log_receive, delete]
  split <;> rename_i h <;> rw [h]

theorem log_of_fetch {request : FetchRequest} {backend next : ScriptedBackend}
    {outcome : Except Fault (List Json.Fields)} (h : Backend.fetch request backend = (outcome, next)) :
    next.log = backend.log ++ [.fetch request] := by
  rw [← log_fetch, show fetch request backend = _ from h]

theorem log_of_delete {request : DeleteRequest} {backend next : ScriptedBackend} {outcome : Except Fault Json}
    (h : Backend.delete request backend = (outcome, next)) : next.log = backend.log ++ [.delete request] := by
  rw [← log_delete, show delete request backend = _ from h]

theorem fetches_add_counts_add_deletes (backend : ScriptedBackend) :
    backend.fetches + backend.counts + backend.deletes = backend.log.length := by
  simp only [fetches, counts, deletes]
  induction backend.log with
  | nil => rfl
  | cons request log ih => cases request <;> simp [List.countP_cons, isFetch, isCount, isDelete] <;> omega

end ScriptedBackend

end VectorQuery
