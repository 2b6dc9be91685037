import Mathlib
import VectorQuery.Proofs.Backend.Exchanges
import VectorQuery.Proofs.Session.Deletion

/-!
# Accounts of the fetches

The scripted backend logs every request, so the log tells what each operation of a run has sent.
Between two operations that drop the loaded objects, a run fetches with success at most once, and
all its reads look at that one list.

* `Read.Answers` — what each read answers from a list of objects;
* `Entry`, `Session.trace` — the operations of a run, each with the session that it meets;
* `Entry.Accounted`, `Entry.accounted` — what an operation sends, and what a read answers and leaves;
* `Entry.Leads`, `Session.isChain_trace` — what an operation leaves loaded, the next one meets;
* `Entry.exists_shows` — in a span in which nothing is dropped, one list is fetched at most and shown;
* `Session.fetches_after` — a run fetches once for each read that meets nothing loaded;
* `Session.fetches_accounted` — **the account of any run**.
-/

namespace VectorQuery

open ScriptedBackend

/-! ### Reads -/

/-- What a read answers from a list of objects: the whole list, one of its ends or one of its places
if there is one, its length, or whether it is empty. -/
inductive Read.Answers (objects : List StoredObject) : Read → Answer → Prop
  | all : Answers objects .all (.objects objects)
  | first : Answers objects .first (.object objects.head?)
  | last : Answers objects .last (.object objects.getLast?)
  | get (index : Nat) : Answers objects (.get index) (.object objects[index]?)
  | size : Answers objects .size (.size objects.length)
  | isEmpty {value : Bool} (h : value = true ↔ objects = []) :
      Answers objects .isEmpty (.truth value)

theorem Read.answers_iff {objects : List StoredObject} {view : Read} {answer : Answer} :
    view.Answers objects answer ↔ answer = view.view objects := by
  constructor
  · intro h
    cases h with
    | isEmpty h => rw [view, Bool.eq_iff_iff.2 (h.trans List.isEmpty_iff.symm)]
    | _ => rfl
  · rintro rfl
    cases view with
    | all => exact .all
    | first => exact .first
    | last => exact .last
    | get index => exact .get index
    | size => exact .size
    | isEmpty => exact .isEmpty List.isEmpty_iff

/-- Whether an operation is a read. -/
def Operation.isRead : Operation → Bool
  | .read _ => true
  | _ => false

theorem Operation.isRead_iff {operation : Operation} :
    operation.isRead = true ↔ ∃ view, operation = .read view := by
  cases operation <;> simp [isRead]

/-! ### Entries -/

/-- An operation of a run, and the session that it meets. -/
structure Entry where
  session : Session ScriptedBackend
  operation : Operation

/-- The operations of a run in their order. -/
def Session.trace (session : Session ScriptedBackend) : List (Event ScriptedBackend) → List Entry
  | [] => []
  | .own operation :: events => ⟨session, operation⟩ :: trace (session.occur (.own operation)) events
  | .foreign change :: events => trace (session.occur (.foreign change)) events

/-- Whether an event leaves the log of the backend to the session. -/
def Event.Quiet : Event ScriptedBackend → Prop
  | .own _ => True
  | .foreign change => ∀ backend, (change backend).log = backend.log

namespace Entry

/-- The answer to the operation. -/
def answer (entry : Entry) : Except Fault Answer := (entry.session.run entry.operation).1

/-- The session after the operation. -/
def next (entry : Entry) : Session ScriptedBackend := (entry.session.run entry.operation).2

/-- The requests that the operation sends: those that the log has more. -/
def sent (entry : Entry) : List Request :=
  entry.next.backend.log.drop entry.session.backend.log.length

/-- Whether the operation is a read that meets nothing loaded. -/
def asks (entry : Entry) : Bool := entry.operation.isRead && entry.session.loaded.isNone

/-- Whether the operation sends a fetch and succeeds. -/
def fetched (entry : Entry) : Bool := entry.sent.any (·.kind = .fetch) && entry.answer.isOk

/-- Whether the operation drops what is loaded: a call that builds, or a delete, that succeeds. -/
def drops (entry : Entry) : Bool :=
  match entry.operation with
  | .build _ => entry.answer.isOk
  | .deleteAll => entry.answer.isOk
  | _ => false

/-- If the operation is a read that succeeds, it answers from these objects. -/
def Shows (objects : List StoredObject) (entry : Entry) : Prop :=
  ∀ view answer, entry.operation = .read view → entry.answer = .ok answer →
    view.Answers objects answer

/-- The operation succeeds with what a read answers from these objects. -/
def Tells (view : Read) (objects : List StoredObject) (entry : Entry) : Prop :=
  ∃ answer, view.Answers objects answer ∧ entry.answer = .ok answer

/-- What a read does with the outcome of its fetch: the objects of the answer are loaded, and a failure
is passed on and changes nothing but the backend. -/
def Takes (view : Read) (entry : Entry) : Except Fault (List Json.Fields) × ScriptedBackend → Prop
  | (.ok batch, backend) =>
    let objects :=
      batch.map fun raw => StoredObject.ofFields raw entry.session.query.selection.HasFields
    entry.Tells view objects ∧ entry.next = { entry.session with loaded := some objects, backend }
  | (.error fault, backend) =>
    entry.answer = .error fault ∧ entry.next = { entry.session with backend }

/-- What a read does.  If objects are loaded, it sends nothing and answers from them.  If none are, it
sends the request of the query, once, and takes the outcome. -/
def Reads (view : Read) (entry : Entry) : Prop :=
  match entry.session.loaded with
  | some objects =>
    entry.sent = [] ∧ entry.Tells view objects ∧ entry.next = entry.session
  | none =>
    ∃ request, entry.session.query.fetchRequest = .ok request ∧ entry.sent = [.fetch request]
      ∧ entry.Takes view (Backend.fetch request entry.session.backend)

/-- The log grows by what is sent, and only a read may send a fetch. -/
structure Accounted (entry : Entry) : Prop where
  log : entry.next.backend.log = entry.session.backend.log ++ entry.sent
  others : entry.operation.isRead = false → ∀ request ∈ entry.sent, request.kind ≠ .fetch
  reads : ∀ view, entry.operation = .read view → entry.Reads view

/-! ### One operation -/

theorem sent_of_log {entry : Entry} {requests : List Request}
    (h : entry.next.backend.log = entry.session.backend.log ++ requests) :
    entry.sent = requests := by
  rw [sent, h, List.drop_left]

theorem tells {entry : Entry} {view : Read} {objects : List StoredObject}
    (h : entry.answer = .ok (view.view objects)) : entry.Tells view objects :=
  ⟨_, Read.answers_iff.2 rfl, h⟩

theorem Tells.isOk {entry : Entry} {view : Read} {objects : List StoredObject}
    (h : entry.Tells view objects) : entry.answer.isOk = true := by
  obtain ⟨answer, -, h⟩ := h
  rw [h]
  rfl

/-- Whatever is no read sends no fetch. -/
theorem exists_log_of_not_read (entry : Entry) (hread : entry.operation.isRead = false) :
    ∃ requests, entry.next.backend.log = entry.session.backend.log ++ requests
      ∧ ∀ request ∈ requests, request.kind ≠ .fetch := by
  obtain ⟨session, operation⟩ := entry
  cases operation with
  | build call =>
    refine ⟨[], ?_, by simp⟩
    rw [List.append_nil, next]
    rcases session.run_build call with ⟨fault, hfault⟩ | ⟨query, -, hrun⟩
    · rw [hfault]
    · rw [hrun]
  | read view => cases hread
  | request => exact ⟨[], (List.append_nil _).symm, by simp⟩
  | count => exact ⟨[.count session.query.countRequest], log_count _ _, by simp [Request.kind]⟩
  | deleteAll =>
    refine ⟨_, session.log_deleteAll, ?_⟩
    cases session.query.deleteRequest? <;> simp [Request.kind]

/-- Whatever is no read leaves what is loaded, unless it drops it. -/
theorem loaded_next_of_not_read {entry : Entry} (hread : entry.operation.isRead = false) :
    entry.next.loaded = if entry.drops then none else entry.session.loaded := by
  obtain ⟨session, operation⟩ := entry
  cases operation with
  | build call =>
    rw [next, drops, answer]
    rcases session.run_build call with ⟨fault, hfault⟩ | ⟨query, -, hrun⟩
    · rw [hfault]
      rfl
    · rw [hrun]
      rfl
  | read view => cases hread
  | request => rfl
  | count => rfl
  | deleteAll =>
    have hnext : next ⟨session, .deleteAll⟩ = session.deleteAll.2 := rfl
    have hdrops : drops ⟨session, .deleteAll⟩ = (session.deleteAll.1.map Answer.summary).isOk := rfl
    have hdeletion := session.deletion
    rw [hnext, hdrops]
    generalize session.deleteAll.1 = result, session.deleteAll.2 = last at hdeletion ⊢
    cases hdeletion <;> rfl

theorem accounted_of_reads {entry : Entry} {view : Read} {requests : List Request}
    (hview : entry.operation = .read view)
    (hlog : entry.next.backend.log = entry.session.backend.log ++ requests)
    (hreads : entry.Reads view) :
    entry.Accounted where
  log := by rw [hlog, sent_of_log hlog]
  others := fun hread => by
    rw [hview] at hread
    cases hread
  reads := fun other hother => by
    rw [hview] at hother
    cases hother
    exact hreads

/-- A read that takes the outcome of its fetch is accounted for. -/
theorem accounted_of_fetch {entry : Entry} {view : Read} {request : FetchRequest}
    {outcome : Except Fault (List Json.Fields)} {backend : ScriptedBackend}
    (hview : entry.operation = .read view) (hloaded : entry.session.loaded = none)
    (hrequest : entry.session.query.fetchRequest = .ok request)
    (h : Backend.fetch request entry.session.backend = (outcome, backend))
    (hbackend : entry.next.backend = backend) (htakes : entry.Takes view (outcome, backend)) :
    entry.Accounted := by
  have hlog : entry.next.backend.log = entry.session.backend.log ++ [.fetch request] := by
    rw [hbackend, log_of_fetch h]
  refine accounted_of_reads hview hlog ?_
  rw [Reads, hloaded]
  refine ⟨request, hrequest, sent_of_log hlog, ?_⟩
  rw [h]
  exact htakes

theorem accounted_read {session : Session ScriptedBackend} (hrendered : session.query.Rendered)
    (view : Read) :
    Accounted ⟨session, .read view⟩ := by
  have hanswer : answer ⟨session, .read view⟩ = session.objects.1.map view.view := rfl
  have hnext : next ⟨session, .read view⟩ = session.objects.2 := rfl
  have hloading := session.loading
  generalize session.objects.1 = result, session.objects.2 = last at hanswer hnext hloading
  cases hloading with
  | kept hloaded =>
    have hlog : (next ⟨session, .read view⟩).backend.log = session.backend.log ++ [] := by
      rw [hnext, List.append_nil]
    refine accounted_of_reads rfl hlog ?_
    rw [Reads, hloaded]
    exact ⟨sent_of_log hlog, tells hanswer, hnext⟩
  | unwritten _ hrequest =>
    obtain ⟨request, h⟩ := hrendered.request
    rw [hrequest] at h
    cases h
  | failed hloaded hrequest h =>
    exact accounted_of_fetch rfl hloaded hrequest h (by rw [hnext]) ⟨hanswer, hnext⟩
  | fetched hloaded hrequest h =>
    rw [session.parse_eq] at hanswer hnext
    exact accounted_of_fetch rfl hloaded hrequest h (by rw [hnext]) ⟨tells hanswer, hnext⟩

/-- Every operation is accounted for. -/
theorem accounted {entry : Entry} (hrendered : entry.session.query.Rendered) :
    entry.Accounted := by
  obtain ⟨session, operation⟩ := entry
  cases hread : operation.isRead with
  | true =>
    cases operation with
    | read view => exact accounted_read hrendered view
    | _ => cases hread
  | false =>
    obtain ⟨requests, hlog, hrequests⟩ := exists_log_of_not_read ⟨session, operation⟩ hread
    have hsent := sent_of_log hlog
    refine ⟨?_, ?_, ?_⟩
    · rw [hsent]
      exact hlog
    · intro _
      rw [hsent]
      exact hrequests
    · rintro view rfl
      cases hread

/-! ### One operation among others -/

/-- Whatever is no read fetches nothing and shows nothing. -/
theorem Accounted.of_not_read {entry : Entry} (h : entry.Accounted)
    (hread : entry.operation.isRead = false) :
    entry.fetched = false ∧ ∀ objects, entry.Shows objects := by
  constructor
  · have hsent : entry.sent.any (·.kind = .fetch) = false := by
      rw [List.any_eq_false]
      intro request hrequest
      simp [h.others hread request hrequest]
    rw [fetched, hsent, Bool.false_and]
  · intro objects view answer hview
    rw [hview] at hread
    cases hread

/-- A read that answers from some objects shows them. -/
theorem Tells.shows {entry : Entry} {view : Read} {objects : List StoredObject}
    (h : entry.Tells view objects) (hview : entry.operation = .read view) :
    entry.Shows objects := by
  intro other answer hother hanswer
  rw [hview] at hother
  cases hother
  obtain ⟨told, htold, h⟩ := h
  rw [h] at hanswer
  cases hanswer
  exact htold

/-- A read that fails leaves the session unloaded. -/
theorem Accounted.unloaded_of_error {entry : Entry} (h : entry.Accounted)
    (hread : entry.operation.isRead = true) (hanswer : entry.answer.isOk = false) :
    entry.next.loaded = none := by
  obtain ⟨view, hview⟩ := Operation.isRead_iff.1 hread
  have hreads := h.reads view hview
  rw [Reads] at hreads
  split at hreads
  · rw [hreads.2.1.isOk] at hanswer
    cases hanswer
  · rename_i hloaded
    obtain ⟨request, -, -, htakes⟩ := hreads
    unfold Takes at htakes
    split at htakes
    · rw [htakes.1.isOk] at hanswer
      cases hanswer
    · rw [htakes.2]
      exact hloaded

/-- What is loaded stays loaded and is what is shown, and nothing is fetched. -/
theorem Accounted.of_loaded {entry : Entry} (h : entry.Accounted) (hdrops : entry.drops = false)
    {objects : List StoredObject} (hloaded : entry.session.loaded = some objects) :
    entry.next.loaded = some objects ∧ entry.fetched = false ∧ entry.Shows objects := by
  cases hread : entry.operation.isRead with
  | false =>
    obtain ⟨hfetched, hshows⟩ := h.of_not_read hread
    have hnext := loaded_next_of_not_read hread
    rw [hdrops] at hnext
    exact ⟨hnext.trans hloaded, hfetched, hshows objects⟩
  | true =>
    obtain ⟨view, hview⟩ := Operation.isRead_iff.1 hread
    have hreads := h.reads view hview
    rw [Reads, hloaded] at hreads
    obtain ⟨hsent, htells, hnext⟩ := hreads
    refine ⟨by rw [hnext, hloaded], ?_, htells.shows hview⟩
    rw [fetched, hsent]
    rfl

/-- If nothing is loaded, then either nothing is fetched and nothing shown, or what is shown is
loaded. -/
theorem Accounted.of_unloaded {entry : Entry} (h : entry.Accounted) (hdrops : entry.drops = false)
    (hloaded : entry.session.loaded = none) :
    (entry.next.loaded = none ∧ entry.fetched = false ∧ ∀ objects, entry.Shows objects)
    ∨ ∃ objects, entry.next.loaded = some objects ∧ entry.Shows objects := by
  cases hread : entry.operation.isRead with
  | false =>
    obtain ⟨hfetched, hshows⟩ := h.of_not_read hread
    have hnext := loaded_next_of_not_read hread
    rw [hdrops] at hnext
    exact Or.inl ⟨hnext.trans hloaded, hfetched, hshows⟩
  | true =>
    obtain ⟨view, hview⟩ := Operation.isRead_iff.1 hread
    have hreads := h.reads view hview
    rw [Reads, hloaded] at hreads
    obtain ⟨request, -, -, htakes⟩ := hreads
    unfold Takes at htakes
    split at htakes
    · obtain ⟨htells, hnext⟩ := htakes
      exact Or.inr ⟨_, by rw [hnext], htells.shows hview⟩
    · obtain ⟨hanswer, hnext⟩ := htakes
      refine Or.inl ⟨by rw [hnext, hloaded], ?_, ?_⟩
      · rw [fetched, hanswer]
        exact Bool.and_false _
      · intro objects other answer _ hother
        rw [hanswer] at hother
        cases hother

/-- A fetch is sent for a read that meets nothing loaded, and for nothing else. -/
theorem Accounted.countP_sent {entry : Entry} (h : entry.Accounted) :
    entry.sent.countP isFetch = if entry.asks then 1 else 0 := by
  rw [asks]
  cases hread : entry.operation.isRead with
  | false =>
    rw [Bool.false_and, if_neg Bool.false_ne_true, List.countP_eq_zero]
    intro request hrequest
    simp [isFetch_eq, h.others hread request hrequest]
  | true =>
    obtain ⟨view, hview⟩ := Operation.isRead_iff.1 hread
    have hreads := h.reads view hview
    rw [Reads] at hreads
    cases hloaded : entry.session.loaded with
    | some objects =>
      rw [hloaded] at hreads
      rw [hreads.1]
      rfl
    | none =>
      rw [hloaded] at hreads
      obtain ⟨request, -, hsent, -⟩ := hreads
      rw [hsent]
      rfl

/-! ### Spans -/

/-- What one operation leaves loaded is what the next one meets. -/
def Leads (entry following : Entry) : Prop := following.session.loaded = entry.next.loaded

/-- While objects are loaded, nothing is fetched, and they are what is shown. -/
theorem shows_of_loaded {span : List Entry} (hchain : span.IsChain Leads)
    (haccounted : ∀ entry ∈ span, entry.Accounted) (hdrops : ∀ entry ∈ span, entry.drops = false)
    {objects : List StoredObject} (hloaded : ∀ entry ∈ span.head?, entry.session.loaded = some objects) :
    span.countP fetched = 0 ∧ ∀ entry ∈ span, entry.Shows objects := by
  induction span with
  | nil => exact ⟨rfl, fun _ h => absurd h List.not_mem_nil⟩
  | cons entry span ih =>
    rw [List.isChain_cons] at hchain
    rw [List.forall_mem_cons] at haccounted hdrops
    obtain ⟨hnext, hfetched, hshows⟩ := haccounted.1.of_loaded hdrops.1 (hloaded entry rfl)
    obtain ⟨hcount, hrest⟩ := ih hchain.2 haccounted.2 hdrops.2
      fun following hfollowing => (hchain.1 following hfollowing).trans hnext
    refine ⟨?_, List.forall_mem_cons.2 ⟨hshows, hrest⟩⟩
    rw [List.countP_cons_of_neg (by simp [hfetched]), hcount]

/-- In a span in which nothing is dropped, one fetch succeeds at most, and all reads that succeed
show the same objects. -/
theorem exists_shows {span : List Entry} (hchain : span.IsChain Leads)
    (haccounted : ∀ entry ∈ span, entry.Accounted) (hdrops : ∀ entry ∈ span, entry.drops = false) :
    span.countP fetched ≤ 1 ∧ ∃ objects, ∀ entry ∈ span, entry.Shows objects := by
  induction span with
  | nil => exact ⟨Nat.zero_le 1, [], fun _ h => absurd h List.not_mem_nil⟩
  | cons entry span ih =>
    cases hloaded : entry.session.loaded with
    | some objects =>
      have hhead : ∀ first ∈ (entry :: span).head?, first.session.loaded = some objects := by
        rintro first ⟨⟩
        exact hloaded
      obtain ⟨hcount, hshows⟩ := shows_of_loaded hchain haccounted hdrops hhead
      exact ⟨by omega, objects, hshows⟩
    | none =>
      rw [List.isChain_cons] at hchain
      rw [List.forall_mem_cons] at haccounted hdrops
      rcases haccounted.1.of_unloaded hdrops.1 hloaded with
        ⟨-, hfetched, hshows⟩ | ⟨objects, hnext, hshows⟩
      · obtain ⟨hcount, objects, hrest⟩ := ih hchain.2 haccounted.2 hdrops.2
        refine ⟨?_, objects, List.forall_mem_cons.2 ⟨hshows objects, hrest⟩⟩
        rwa [List.countP_cons_of_neg (by simp [hfetched])]
      · -- from here on the objects are loaded, so this fetch is the only one
        obtain ⟨hcount, hrest⟩ := shows_of_loaded hchain.2 haccounted.2 hdrops.2
          fun following hfollowing => (hchain.1 following hfollowing).trans hnext
        refine ⟨?_, objects, List.forall_mem_cons.2 ⟨hshows, hrest⟩⟩
        rw [List.countP_cons, hcount]
        split <;> omega

/-- Nothing gets loaded without a read. -/
theorem unloaded_last {between : List Entry} {last : Entry}
    (hchain : (between ++ [last]).IsChain Leads)
    (hreads : ∀ entry ∈ between, entry.operation.isRead = false)
    (hloaded : ∀ entry ∈ (between ++ [last]).head?, entry.session.loaded = none) :
    last.session.loaded = none := by
  induction between with
  | nil => exact hloaded last rfl
  | cons entry between ih =>
    rw [List.cons_append, List.isChain_cons] at hchain
    rw [List.forall_mem_cons] at hreads
    have hnext : entry.next.loaded = none := by
      rw [loaded_next_of_not_read hreads.1, hloaded entry rfl, ite_self]
    exact ih hchain.2 hreads.2 fun following hfollowing => (hchain.1 following hfollowing).trans hnext

end Entry

namespace Session

/-! ### Runs -/

theorem mem_trace {session : Session ScriptedBackend} {events : List (Event ScriptedBackend)}
    {entry : Entry} (h : entry ∈ session.trace events) :
    ∃ earlier, entry.session = session.after earlier := by
  induction events generalizing session with
  | nil => cases h
  | cons event events ih =>
    have hrest : entry ∈ (session.occur event).trace events →
        ∃ earlier, entry.session = session.after earlier := by
      intro h
      obtain ⟨earlier, hearlier⟩ := ih h
      exact ⟨event :: earlier, hearlier⟩
    cases event with
    | own operation =>
      rcases List.mem_cons.1 h with rfl | h
      · exact ⟨[], rfl⟩
      · exact hrest h
    | foreign change => exact hrest h

/-- The first operation of a run meets what is loaded at the start, and each one meets what the one
before it left. -/
theorem isChain_trace (session : Session ScriptedBackend) (events : List (Event ScriptedBackend)) :
    (∀ entry ∈ (session.trace events).head?, entry.session.loaded = session.loaded)
    ∧ (session.trace events).IsChain Entry.Leads := by
  induction events generalizing session with
  | nil => exact ⟨by simp [trace], List.isChain_nil⟩
  | cons event events ih =>
    cases event with
    | own operation =>
      obtain ⟨hhead, hchain⟩ := ih (session.occur (.own operation))
      refine ⟨?_, List.isChain_cons.2 ⟨hhead, hchain⟩⟩
      rintro entry ⟨⟩
      rfl
    | foreign change => exact ih (session.occur (.foreign change))

/-- Every operation of a run is accounted for. -/
theorem accounted_trace {session : Session ScriptedBackend} (hrendered : session.query.Rendered)
    {events : List (Event ScriptedBackend)} {entry : Entry} (h : entry ∈ session.trace events) :
    entry.Accounted := by
  obtain ⟨earlier, hearlier⟩ := mem_trace h
  apply Entry.accounted
  rw [hearlier]
  exact rendered_after hrendered earlier

/-- If nobody else sends anything, the backend has seen one more fetch for each read that met nothing
loaded. -/
theorem fetches_after {session : Session ScriptedBackend} (hrendered : session.query.Rendered)
    {events : List (Event ScriptedBackend)} (hquiet : ∀ event ∈ events, event.Quiet) :
    (session.after events).backend.fetches
      = session.backend.fetches + (session.trace events).countP Entry.asks := by
  induction events generalizing session with
  | nil => rfl
  | cons event events ih =>
    rw [List.forall_mem_cons] at hquiet
    have hafter : (session.after (event :: events)) = (session.occur event).after events := rfl
    have hnext : (session.occur event).query.Rendered := rendered_after hrendered [event]
    rw [hafter, ih hnext hquiet.2]
    cases event with
    | own operation =>
      have haccounted : Entry.Accounted ⟨session, operation⟩ := Entry.accounted hrendered
      have hlog : (session.occur (.own operation)).backend.log
          = session.backend.log ++ Entry.sent ⟨session, operation⟩ := haccounted.log
      rw [trace, List.countP_cons, fetches, hlog, List.countP_append, haccounted.countP_sent, fetches]
      omega
    | foreign change =>
      have hlog : (session.occur (.foreign change)).backend.log = session.backend.log :=
        hquiet.1 session.backend
      rw [trace, fetches, hlog, fetches]

/-- **Accounts of the fetches.**  In every run: each read that meets nothing loaded sends one fetch,
and nothing else sends any; a read that fails leaves the session unloaded, so the next read fetches
again.  In a span in which nothing is dropped, one fetch succeeds at most, and all reads that succeed
are views of one list of objects.  If nobody else uses the backend, it has seen as many fetches more
as there were reads that met nothing loaded. -/
theorem fetches_accounted (collection : Collection) (defaults : Defaults)
    (backend : ScriptedBackend) (events : List (Event ScriptedBackend)) :
    let session := start collection defaults backend
    let trace := session.trace events
    (∀ entry ∈ trace, entry.Accounted)
    ∧ (∀ failed between again, failed :: (between ++ [again]) <:+: trace →
        failed.operation.isRead = true → failed.answer.isOk = false →
        (∀ entry ∈ between, entry.operation.isRead = false) → again.operation.isRead = true →
        ∃ request, again.sent = [.fetch request])
    ∧ (∀ span, span <:+: trace → (∀ entry ∈ span, entry.drops = false) →
        span.countP Entry.fetched ≤ 1 ∧ ∃ objects, ∀ entry ∈ span, entry.Shows objects)
    ∧ ((∀ event ∈ events, event.Quiet) →
        (session.after events).backend.fetches = backend.fetches + trace.countP Entry.asks) := by
  intro session trace
  have hrendered : session.query.Rendered := Query.rendered_new collection defaults
  have haccounted : ∀ entry ∈ trace, entry.Accounted := fun _ h => accounted_trace hrendered h
  have hchain : trace.IsChain Entry.Leads := (isChain_trace session events).2
  refine ⟨haccounted, ?_, ?_, fun hquiet => fetches_after hrendered hquiet⟩
  · intro failed between again hspan hfailed hanswer hbetween hagain
    have hpart : (failed :: (between ++ [again])).IsChain Entry.Leads := hchain.infix hspan
    have hlinks := List.isChain_cons.1 hpart
    have hunloaded : failed.next.loaded = none :=
      (haccounted failed (hspan.mem (by simp))).unloaded_of_error hfailed hanswer
    have hmeets : again.session.loaded = none :=
      Entry.unloaded_last hlinks.2 hbetween
        fun following hfollowing => (hlinks.1 following hfollowing).trans hunloaded
    obtain ⟨view, hview⟩ := Operation.isRead_iff.1 hagain
    have hreads := (haccounted again (hspan.mem (by simp))).reads view hview
    rw [Entry.Reads, hmeets] at hreads
    obtain ⟨request, -, hsent, -⟩ := hreads
    exact ⟨request, hsent⟩
  · intro span hspan hdrops
    have hpart : span.IsChain Entry.Leads := hchain.infix hspan
    exact Entry.exists_shows hpart (fun entry h => haccounted entry (hspan.mem h)) hdrops

/-- A backend with a failure queued before its only page. -/
def busyOnce : ScriptedBackend where
  objects := [[[("title", .text "first")]]]
  failures := [.server "busy"]

/-- Two reads before a call that succeeds, the first of them in vain, and one after it. -/
def readsAndCalls : List (Event ScriptedBackend) :=
  [.own (.read .size), .own (.build (.limit "-1")), .own (.read .size), .own .count,
    .own (.read .first), .own (.build (.limit "5")), .own (.read .isEmpty)]

/-- Three fetches are sent, and only one of them succeeds before the call does. -/
theorem fetches_accounted_readsAndCalls :
    let session := start ⟨"Article", ["title"]⟩ ⟨.nan, 25⟩ busyOnce
    (session.after readsAndCalls).backend.fetches = 3
    ∧ ((session.trace readsAndCalls).take 5).countP Entry.fetched ≤ 1 := by
  intro session
  obtain ⟨-, -, hspans, hfetches⟩ :=
    fetches_accounted ⟨"Article", ["title"]⟩ ⟨.nan, 25⟩ busyOnce readsAndCalls
  have hquiet : ∀ event ∈ readsAndCalls, event.Quiet := by simp [readsAndCalls, Event.Quiet]
  have hdrops : ∀ entry ∈ (session.trace readsAndCalls).take 5, entry.drops = false := by decide
  refine ⟨?_, (hspans _ (List.take_prefix _ _).isInfix hdrops).1⟩
  rw [hfetches hquiet]
  decide

end Session

end VectorQuery
