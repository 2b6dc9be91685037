import Mathlib
import VectorQuery.Backend.Scripted

/-!
# Answers of the scripted backend

A backend is set up with answers and failures, and then it is asked, while more batches may still come
in.  Each kind of request has a queue of its own, the failures come before all of them, and the log
keeps every request.

* `RequestKind`, `Response` — what is asked for, and what is answered;
* `ScriptedBackend.ask` — a request of any kind and its answer, with one lemma for each way it can go
  (`ask_of_failure`, `ask_of_no_failure`);
* `Queued`, `scripted` — what a backend is set up with;
* `Exchange`, `after` — the requests and the batches that come in;
* `responses`, `taken` — what has been queued for a kind, and what has been taken from its queue;
* `Account`, `account_after` — what has been queued is what was taken and what is left;
* `exchanges_in_order` — **every request is logged and gets what is next in line**.
-/

namespace VectorQuery

/-! ### Requests and responses of each kind -/

/-- The three kinds of requests. -/
inductive RequestKind
  | fetch
  | count
  | delete
deriving DecidableEq

/-- The kind of a request. -/
def Request.kind : Request → RequestKind
  | .fetch _ => .fetch
  | .count _ => .count
  | .delete _ => .delete

/-- What a request that does not fail is answered with. -/
inductive Response
  | objects (batch : List Json.Fields)
  | total (number : UInt64)
  | body (document : Json)

/-- The kind of request that a response answers. -/
def Response.kind : Response → RequestKind
  | .objects _ => .fetch
  | .total _ => .count
  | .body _ => .delete

/-- The response when nothing is queued: no objects, zero or null. -/
def RequestKind.standard : RequestKind → Response
  | .fetch => .objects []
  | .count => .total 0
  | .delete => .body .null

/-- The items of an array, and none of anything else. -/
def Json.items : Json → List Json
  | .array items => items
  | _ => []

namespace ScriptedBackend

variable {backend : ScriptedBackend} {request : Request} {kind : RequestKind} {fault : Fault}
  {others : List Fault}

/-- The responses that are queued for a kind of request. -/
def queue (backend : ScriptedBackend) : RequestKind → List Response
  | .fetch => backend.objects.map .objects
  | .count => backend.totals.map .total
  | .delete => backend.bodies.map .body

/-- A request of any kind, with its answer and the backend after it. -/
def ask (backend : ScriptedBackend) : Request → Except Fault Response × ScriptedBackend
  | .fetch request => ((fetch request backend).1.map .objects, (fetch request backend).2)
  | .count request => ((count request backend).1.map .total, (count request backend).2)
  | .delete request => ((delete request backend).1.map .body, (delete request backend).2)

/-! ### One request -/

theorem receive_of_failure (h : backend.failures = fault :: others) :
    receive request backend
      = (.error fault, { backend with failures := others, log := backend.log ++ [request] }) := by
  rw [receive, h]

theorem receive_of_no_failure (h : backend.failures = []) :
    receive request backend = (.ok (), { backend with log := backend.log ++ [request] }) := by
  rw [receive, h]

/-- The oldest failure answers a request of any kind.  It leaves its queue, and nothing else does. -/
theorem ask_of_failure (h : backend.failures = fault :: others) :
    backend.ask request
      = (.error fault, { backend with failures := others, log := backend.log ++ [request] }) := by
  cases request with
  | fetch request =>
    rw [ask, fetch, receive_of_failure h]
    rfl
  | count request =>
    rw [ask, count, receive_of_failure h]
    rfl
  | delete request =>
    rw [ask, delete, receive_of_failure h]
    rfl

theorem headD_map_response {α : Type} (f : α → Response) (xs : List α) (x : α) :
    (xs.map f).headD (f x) = f (xs.headD x) := by
  cases xs <;> rfl

/-- Without a failure, a request is answered with the oldest response of its kind, which leaves its
queue; the queues of the other kinds stay. -/
theorem ask_of_no_failure (h : backend.failures = []) (request : Request) :
    (backend.ask request).1 = .ok ((backend.queue request.kind).headD request.kind.standard)
    ∧ (backend.ask request).2.failures = []
    ∧ ∀ kind, (backend.ask request).2.queue kind
        = if kind = request.kind then (backend.queue kind).drop 1 else backend.queue kind := by
  cases request with
  | fetch request =>
    rw [ask, fetch, receive_of_no_failure h, Request.kind]
    refine ⟨congrArg Except.ok (headD_map_response Response.objects _ _).symm, h, ?_⟩
    intro kind
    cases kind with
    | fetch => exact List.map_drop
    | count => rfl
    | delete => rfl
  | count request =>
    rw [ask, count, receive_of_no_failure h, Request.kind]
    refine ⟨congrArg Except.ok (headD_map_response Response.total _ _).symm, h, ?_⟩
    intro kind
    cases kind with
    | fetch => rfl
    | count => exact List.map_drop
    | delete => rfl
  | delete request =>
    rw [ask, delete, receive_of_no_failure h, Request.kind]
    refine ⟨congrArg Except.ok (headD_map_response Response.body _ _).symm, h, ?_⟩
    intro kind
    cases kind with
    | fetch => rfl
    | count => rfl
    | delete => exact List.map_drop

theorem log_ask (backend : ScriptedBackend) (request : Request) :
    (backend.ask request).2.log = backend.log ++ [request] := by
  cases request with
  | fetch request => exact log_fetch request backend
  | count request => exact log_count request backend
  | delete request => exact log_delete request backend

theorem failures_ask (backend : ScriptedBackend) (request : Request) :
    (backend.ask request).2.failures = backend.failures.drop 1 := by
  cases h : backend.failures with
  | nil => exact (ask_of_no_failure h request).2.1
  | cons fault others => rw [ask_of_failure h, List.drop_one, List.tail_cons]

/-! ### Setting a backend up -/

/-- What can be queued on a backend. -/
inductive Queued
  | objects (document : Json)
  | total (number : UInt64)
  | body (document : Json)
  | failure (fault : Fault)

/-- The response that is queued, unless it is a failure. -/
def Queued.response? : Queued → Option Response
  | .objects document => some (.objects (batchOf document))
  | .total number => some (.total number)
  | .body document => some (.body document)
  | .failure _ => none

/-- The failure that is queued. -/
def Queued.fault? : Queued → Option Fault
  | .failure fault => some fault
  | _ => none

/-- One more entry at the end of its queue. -/
def enqueue (backend : ScriptedBackend) : Queued → ScriptedBackend
  | .objects document => backend.pushObjects document
  | .total number => backend.pushCount number
  | .body document => backend.pushBody document
  | .failure fault => backend.pushFailure fault

/-- The backend that is set up with the entries of a script. -/
def scripted (script : List Queued) : ScriptedBackend := script.foldl enqueue {}

/-- A response goes to the end of the queue of its kind, a failure to the end of the failures. -/
theorem queue_enqueue (backend : ScriptedBackend) (entry : Queued) (kind : RequestKind) :
    (backend.enqueue entry).queue kind
      = backend.queue kind ++ entry.response?.toList.filter (·.kind = kind) := by
  cases entry with
  | objects document => cases kind <;> simp [enqueue, pushObjects, queue, Queued.response?, Response.kind]
  | total number => cases kind <;> simp [enqueue, pushCount, queue, Queued.response?, Response.kind]
  | body document => cases kind <;> simp [enqueue, pushBody, queue, Queued.response?, Response.kind]
  | failure fault => cases kind <;> simp [enqueue, pushFailure, queue, Queued.response?]

theorem failures_enqueue (backend : ScriptedBackend) (entry : Queued) :
    (backend.enqueue entry).failures = backend.failures ++ entry.fault?.toList := by
  cases entry <;> simp [enqueue, pushObjects, pushCount, pushBody, pushFailure, Queued.fault?]

theorem log_enqueue (backend : ScriptedBackend) (entry : Queued) :
    (backend.enqueue entry).log = backend.log := by
  cases entry <;> rfl

/-! ### Requests and batches in any order -/

/-- What a backend may meet once it is set up: a request, or one more batch. -/
inductive Exchange
  | ask (request : Request)
  | push (document : Json)

/-- The request that is sent. -/
def Exchange.request? : Exchange → Option Request
  | .ask request => some request
  | .push _ => none

/-- The response that comes in. -/
def Exchange.response? : Exchange → Option Response
  | .ask _ => none
  | .push document => some (.objects (batchOf document))

/-- The backend after one exchange. -/
def next (backend : ScriptedBackend) : Exchange → ScriptedBackend
  | .ask request => (backend.ask request).2
  | .push document => backend.pushObjects document

/-- The backend after all exchanges. -/
def after (backend : ScriptedBackend) (exchanges : List Exchange) : ScriptedBackend :=
  exchanges.foldl next backend

/-- The answer to a request, if it has come out of the queue of a kind: that queue is shorter after
the request. -/
def taken? (backend : ScriptedBackend) (kind : RequestKind) : Exchange → Option Response
  | .ask request =>
    if ((backend.ask request).2.queue kind).length < (backend.queue kind).length then
      (backend.ask request).1.toOption
    else none
  | .push _ => none

/-- The answers that come out of the queue of a kind during the exchanges, in order. -/
def taken (backend : ScriptedBackend) (kind : RequestKind) : List Exchange → List Response
  | [] => []
  | exchange :: exchanges =>
    (backend.taken? kind exchange).toList ++ taken (backend.next exchange) kind exchanges

/-- The responses that have been queued for a kind, by the script and by the exchanges, in order. -/
def responses (script : List Queued) (exchanges : List Exchange) (kind : RequestKind) :
    List Response :=
  (script.filterMap Queued.response? ++ exchanges.filterMap Exchange.response?).filter (·.kind = kind)

theorem after_append (backend : ScriptedBackend) (exchanges more : List Exchange) :
    backend.after (exchanges ++ more) = (backend.after exchanges).after more :=
  List.foldl_append

theorem taken_append (backend : ScriptedBackend) (kind : RequestKind)
    (exchanges more : List Exchange) :
    backend.taken kind (exchanges ++ more)
      = backend.taken kind exchanges ++ (backend.after exchanges).taken kind more := by
  induction exchanges generalizing backend with
  | nil => rfl
  | cons exchange exchanges ih =>
    rw [List.cons_append, taken, taken, ih, List.append_assoc]
    rfl

theorem taken_singleton (backend : ScriptedBackend) (kind : RequestKind) (exchange : Exchange) :
    backend.taken kind [exchange] = (backend.taken? kind exchange).toList :=
  List.append_nil _

/-- A failure takes nothing from any queue. -/
theorem taken_of_failure (h : backend.failures = fault :: others) (kind : RequestKind) :
    backend.taken? kind (.ask request) = none := by
  rw [taken?, ask_of_failure h]
  exact if_neg (lt_irrefl _)

/-- Without a failure, a request takes the head of the queue of its kind and nothing else. -/
theorem taken_of_no_failure (h : backend.failures = []) (kind : RequestKind) :
    (backend.taken? kind (.ask request)).toList
      = if kind = request.kind then (backend.queue kind).take 1 else [] := by
  obtain ⟨hanswer, -, hqueue⟩ := ask_of_no_failure h request
  rw [taken?, hanswer, hqueue]
  split
  next hkind =>
    subst hkind
    cases backend.queue request.kind with
    | nil => rfl
    | cons response pending =>
      rw [if_pos (by simp)]
      rfl
  next => rw [if_neg (lt_irrefl _), Option.toList_none]

/-- What a request takes and what it leaves is what was there. -/
theorem taken_append_queue (backend : ScriptedBackend) (kind : RequestKind) (request : Request) :
    (backend.taken? kind (.ask request)).toList ++ (backend.ask request).2.queue kind
      = backend.queue kind := by
  cases h : backend.failures with
  | cons fault others =>
    rw [taken_of_failure h, ask_of_failure h]
    rfl
  | nil =>
    rw [taken_of_no_failure h, (ask_of_no_failure h request).2.2]
    split
    · exact List.take_append_drop 1 _
    · exact List.nil_append _

/-! ### Accounts -/

/-- The account of a backend: what it was asked is logged, each request has used up one failure as
long as there were any, and what was queued for a kind is what was taken and what is left. -/
structure Account (script : List Queued) (exchanges : List Exchange) (backend : ScriptedBackend) :
    Prop where
  log : backend.log = exchanges.filterMap Exchange.request?
  failures : backend.failures
    = (script.filterMap Queued.fault?).drop (exchanges.filterMap Exchange.request?).length
  queues : ∀ kind, responses script exchanges kind
    = (scripted script).taken kind exchanges ++ backend.queue kind

theorem account_scripted (script : List Queued) : Account script [] (scripted script) := by
  induction script using List.reverseRecOn with
  | nil => exact ⟨rfl, rfl, fun kind => by cases kind <;> rfl⟩
  | append_singleton script entry ih =>
    have hlast : scripted (script ++ [entry]) = (scripted script).enqueue entry := List.foldl_append
    refine ⟨?_, ?_, ?_⟩
    · rw [hlast, log_enqueue]
      exact ih.log
    · rw [hlast, failures_enqueue, ih.failures, List.filterMap_append]
      cases entry <;> rfl
    · intro kind
      have hqueue : responses script [] kind = (scripted script).queue kind := ih.queues kind
      rw [hlast, queue_enqueue, ← hqueue, responses, responses, List.filterMap_append]
      cases entry <;> simp [taken, Queued.response?]

theorem Account.next {script : List Queued} {exchanges : List Exchange}
    (h : Account script exchanges ((scripted script).after exchanges)) (exchange : Exchange) :
    Account script (exchanges ++ [exchange]) ((scripted script).after (exchanges ++ [exchange])) := by
  rw [after_append]
  generalize hmet : (scripted script).after exchanges = met at h ⊢
  cases exchange with
  | ask request =>
    refine ⟨?_, ?_, ?_⟩
    · rw [List.filterMap_append, ← h.log]
      exact log_ask met request
    · have hfailures : (met.after [.ask request]).failures = met.failures.drop 1 :=
        failures_ask met request
      rw [hfailures, h.failures, List.drop_drop, List.filterMap_append, List.length_append]
      rfl
    · intro kind
      have hresponses : responses script (exchanges ++ [.ask request]) kind
          = responses script exchanges kind := by
        simp [responses, Exchange.response?]
      rw [hresponses, h.queues, taken_append, hmet, taken_singleton, List.append_assoc]
      exact congrArg _ (taken_append_queue met kind request).symm
  | push document =>
    refine ⟨?_, ?_, ?_⟩
    · rw [List.filterMap_append]
      exact h.log.trans (List.append_nil _).symm
    · rw [List.filterMap_append]
      exact h.failures.trans (by rw [List.filterMap_cons_none rfl, List.filterMap_nil, List.append_nil])
    · intro kind
      have hresponses : responses script (exchanges ++ [.push document]) kind
          = responses script exchanges kind
            ++ [Response.objects (batchOf document)].filter (·.kind = kind) := by
        simp [responses, Exchange.response?]
      have hqueue : (met.after [.push document]).queue kind
          = met.queue kind ++ [Response.objects (batchOf document)].filter (·.kind = kind) :=
        queue_enqueue met (.objects document) kind
      rw [hresponses, h.queues, hqueue, taken_append, hmet, taken_singleton, taken?, Option.toList_none,
        List.append_nil, List.append_assoc]

/-- Every run has its account. -/
theorem account_after (script : List Queued) (exchanges : List Exchange) :
    Account script exchanges ((scripted script).after exchanges) := by
  induction exchanges using List.reverseRecOn with
  | nil => exact account_scripted script
  | append_singleton exchanges exchange ih => exact ih.next exchange

/-- What is taken from the queue of a kind is the beginning of what is queued for it. -/
theorem taken_prefix (script : List Queued) (exchanges : List Exchange) (kind : RequestKind) :
    (scripted script).taken kind exchanges <+: responses script exchanges kind :=
  ⟨_, ((account_after script exchanges).queues kind).symm⟩

/-- The objects of a document are the objects among its items. -/
theorem map_object_batchOf (document : Json) :
    (batchOf document).map Json.object = document.items.filter (·.kind = "object") := by
  cases document with
  | array items =>
    rw [batchOf, Json.items]
    induction items with
    | nil => rfl
    | cons item items ih =>
      rw [List.filter_cons, ← ih]
      cases item <;> rfl
  | _ => rfl

/-! ### Every request -/

/-- What a request gets after the exchanges: the failure that is due as long as there is one, and then
nothing is taken from any queue; else the oldest response of its kind that has been queued and not yet
taken, or the standard one if there is none. -/
def NextInLine (script : List Queued) (exchanges : List Exchange) (request : Request) : Prop :=
  let backend := scripted script
  let answer := ((backend.after exchanges).ask request).1
  let longer := exchanges ++ [.ask request]
  match (script.filterMap Queued.fault?)[(exchanges.filterMap Exchange.request?).length]? with
  | some fault =>
    answer = .error fault ∧ ∀ kind, backend.taken kind longer = backend.taken kind exchanges
  | none => ∃ pending,
    responses script exchanges request.kind = backend.taken request.kind exchanges ++ pending
    ∧ answer = .ok (pending.headD request.kind.standard)
    ∧ ∀ kind, backend.taken kind longer
        = backend.taken kind exchanges ++ if kind = request.kind then pending.take 1 else []

theorem nextInLine (script : List Queued) (exchanges : List Exchange) (request : Request) :
    NextInLine script exchanges request := by
  have haccount := account_after script exchanges
  have hdue := congrArg List.head? haccount.failures
  rw [List.head?_drop] at hdue
  simp only [NextInLine, ← hdue, taken_append, taken_singleton]
  generalize (scripted script).after exchanges = met at haccount
  cases hfailures : met.failures with
  | cons fault others =>
    refine ⟨by rw [ask_of_failure hfailures], ?_⟩
    intro kind
    rw [taken_of_failure hfailures, Option.toList_none, List.append_nil]
  | nil =>
    refine ⟨met.queue request.kind, haccount.queues _, (ask_of_no_failure hfailures request).1, ?_⟩
    intro kind
    rw [taken_of_no_failure hfailures]
    split
    next hkind => rw [hkind]
    next => rfl

theorem isFetch_eq (request : Request) : isFetch request = decide (request.kind = .fetch) := by
  cases request <;> rfl

theorem isCount_eq (request : Request) : isCount request = decide (request.kind = .count) := by
  cases request <;> rfl

theorem isDelete_eq (request : Request) : isDelete request = decide (request.kind = .delete) := by
  cases request <;> rfl

theorem fetch?_eq_some_iff {fetched : FetchRequest} :
    fetch? request = some fetched ↔ request = .fetch fetched := by
  cases request <;> simp [fetch?]

theorem fetch?_eq_none_iff : fetch? request = none ↔ request.kind ≠ .fetch := by
  cases request <;> simp [fetch?, Request.kind]

/-- The latest fetch is the one that no fetch follows in the log. -/
theorem lastFetch?_eq_some_iff {fetched : FetchRequest} :
    backend.lastFetch? = some fetched
      ↔ ∃ sooner later, backend.log = sooner ++ .fetch fetched :: later
        ∧ ∀ request ∈ later, request.kind ≠ .fetch := by
  rw [lastFetch?, List.findSome?_eq_some_iff]
  simp only [fetch?_eq_some_iff, fetch?_eq_none_iff]
  constructor
  · rintro ⟨later, _, sooner, hlog, rfl, hlater⟩
    refine ⟨sooner.reverse, later.reverse, ?_, fun request h => hlater request (List.mem_reverse.1 h)⟩
    rw [← List.reverse_reverse backend.log, hlog, List.reverse_append, List.reverse_cons,
      List.append_assoc, List.singleton_append]
  · rintro ⟨sooner, later, hlog, hlater⟩
    refine ⟨later.reverse, _, sooner.reverse, ?_, rfl,
      fun request h => hlater request (List.mem_reverse.1 h)⟩
    rw [hlog, List.reverse_append, List.reverse_cons, List.append_assoc, List.singleton_append]

/-- **The scripted backend answers in order.**  Whatever it is set up with, and whatever requests and
batches come in: the log is the list of the requests, the counters count the three kinds in it and the
latest fetch is the one that no fetch follows; the next request, of whatever kind, gets what is next in line; what is
taken from the queue of a kind is the beginning of what has been queued for that kind; and a batch holds
the objects among the items of its document. -/
theorem exchanges_in_order (script : List Queued) (exchanges : List Exchange) :
    let last := (scripted script).after exchanges
    let asked := exchanges.filterMap Exchange.request?
    last.log = asked
    ∧ last.fetches = asked.countP (·.kind = .fetch)
    ∧ last.counts = asked.countP (·.kind = .count)
    ∧ last.deletes = asked.countP (·.kind = .delete)
    ∧ last.fetches + last.counts + last.deletes = asked.length
    ∧ (∀ fetched, last.lastFetch? = some fetched
        ↔ ∃ sooner later, asked = sooner ++ .fetch fetched :: later
          ∧ ∀ request ∈ later, request.kind ≠ .fetch)
    ∧ (∀ request, NextInLine script exchanges request)
    ∧ (∀ kind, (scripted script).taken kind exchanges <+: responses script exchanges kind
        ∧ ∀ response ∈ (scripted script).taken kind exchanges, response.kind = kind)
    ∧ ∀ document, (batchOf document).map Json.object = document.items.filter (·.kind = "object") := by
  intro last asked
  have hlog : last.log = asked := (account_after script exchanges).log
  refine ⟨hlog, ?_, ?_, ?_, ?_, ?_, nextInLine script exchanges, ?_, map_object_batchOf⟩
  · rw [fetches, hlog]
    exact List.countP_congr fun request _ => by rw [isFetch_eq]
  · rw [counts, hlog]
    exact List.countP_congr fun request _ => by rw [isCount_eq]
  · rw [deletes, hlog]
    exact List.countP_congr fun request _ => by rw [isDelete_eq]
  · rw [fetches_add_counts_add_deletes, hlog]
  · intro fetched
    rw [lastFetch?_eq_some_iff, hlog]
  · intro kind
    have hstart := taken_prefix script exchanges kind
    refine ⟨hstart, ?_⟩
    intro response hresponse
    exact of_decide_eq_true (List.mem_filter.1 (hstart.subset hresponse)).2

/-- A batch that comes in after the queue has run dry is the answer to the next fetch. -/
example (request : FetchRequest) :
    (scripted [.failure (.server "busy")]).taken .fetch
        [.ask (.fetch request), .ask (.fetch request), .push (.array [.null, .object []]),
          .ask (.fetch request)]
      = [.objects [[]]] :=
  rfl

end ScriptedBackend

end VectorQuery
