import Mathlib
import VectorQuery.Proofs.Session.Counting
import VectorQuery.Proofs.Sorting.Accepted
import VectorQuery.Proofs.Sorting.Unambiguous

/-!
# Sort keys add up

The sort keys of a query are those of the calls that have succeeded, one call after another, so it
does not matter how they are grouped into calls.  A request has them in one text, which tells them
apart, or not at all beside a keyword.

* `Call.sortKeys` — the keys that a call gives;
* `Session.run_sort` — what comes of a call for several keys;
* `Call.singles`, `Session.onAll_singles` — the calls for one key each that do the same;
* `Session.keys_after`, `Session.keyword_after` — the keys after any events, and whether there is a
  keyword;
* `Session.sorting_accumulates` — **what the keys are, which calls are refused, and what is sent**.
-/

namespace VectorQuery

/-! ### Calls -/

/-- The keys that a call gives, if it succeeds. -/
def Call.sortKeys : Call → List SortKey
  | .sort bare directed => SortKey.keysOf bare directed
  | .sortBy name direction => [⟨SortKey.placeOf name, direction⟩]
  | _ => []

/-- The attributes of a call with their directions: the bare ones, and then those of the pairs. -/
def SortKey.entries (bare : List String) (directed : List (String × String)) :
    List (String × Direction) :=
  bare.map (·, .ascending) ++ directed.map fun pair => (pair.1, Direction.named pair.2)

theorem SortKey.keysOf_eq (bare : List String) (directed : List (String × String)) :
    SortKey.keysOf bare directed
      = (SortKey.entries bare directed).map fun entry => ⟨SortKey.placeOf entry.1, entry.2⟩ := by
  simp [SortKey.keysOf, SortKey.entries, Function.comp_def, SortKey.keyOf]

/-- The calls for one key each that a call for several comes to. -/
def Call.singles (bare : List String) (directed : List (String × String)) : List Call :=
  (SortKey.entries bare directed).map fun entry => .sortBy entry.1 entry.2

namespace Query

/-- A call that succeeds adds its keys. -/
theorem Built.sortKeys {before after : Query} {call : Call} (h : before.Built call after) :
    after.sorting.keys = before.sorting.keys ++ call.sortKeys := by
  cases h with
  | sort h =>
    obtain ⟨-, -, -, rfl⟩ := SortKey.ofCall_eq_ok_iff.1 h
    rfl
  | sortBy h =>
    obtain ⟨-, rfl⟩ := SortKey.of_eq_ok_iff.1 h
    rfl
  | _ => exact (List.append_nil _).symm

/-- After a call that succeeds there is a keyword if there was one, or if the call gives one. -/
theorem Built.keyword {before after : Query} {call : Call} (h : before.Built call after) :
    after.search.keyword.isSome = (before.search.keyword.isSome || call.part = .keyword) := by
  by_cases hpart : call.part = .keyword
  · rw [decide_eq_true hpart, Bool.or_true]
    cases h with
    | @search call _ _ h =>
      cases call <;> cases hpart
      cases h
      rfl
    | _ => cases hpart
  · rw [decide_eq_false hpart, Bool.or_false, h.agrees.search.keyword hpart]

end Query

namespace Session

variable {σ : Type}

/-! ### One call -/

/-- The session with more sort keys and no loaded objects. -/
def withKeys (session : Session σ) (keys : List SortKey) : Session σ :=
  { session with
    query := { session.query with sorting := session.query.sorting.extend keys }
    loaded := none }

theorem withKeys_withKeys (session : Session σ) (keys more : List SortKey) :
    (session.withKeys keys).withKeys more = session.withKeys (keys ++ more) := by
  simp only [withKeys, Sorting.extend, List.append_assoc]

theorem on_sortBy {name : String} (hname : SortKey.Identifier name) (direction : Direction)
    (session : Session σ) :
    (build (.sortBy name direction)).on session
      = (.ok (), session.withKeys [⟨SortKey.placeOf name, direction⟩]) := by
  simp only [Change.on, build_eq, Query.perform, SortKey.of_eq_ok_iff.2 ⟨hname, rfl⟩]
  rfl

/-! ### Calls for several keys -/

/-- The calls for one key each add all keys, after any that have just been added. -/
theorem onAll_sortBy (session : Session σ) (keys : List SortKey)
    {entries : List (String × Direction)} (h : ∀ entry ∈ entries, SortKey.Identifier entry.1) :
    Change.onAll build (session.withKeys keys) (entries.map fun entry => .sortBy entry.1 entry.2)
      = (entries.map fun entry => (.sortBy entry.1 entry.2, .ok ()),
        session.withKeys (keys ++ entries.map fun entry => ⟨SortKey.placeOf entry.1, entry.2⟩)) := by
  induction entries generalizing keys with
  | nil => simp [Change.onAll]
  | cons entry entries ih =>
    obtain ⟨hentry, hmore⟩ := List.forall_mem_cons.1 h
    simp only [List.map_cons, Change.onAll, on_sortBy hentry, withKeys_withKeys, ih _ hmore]
    rw [List.append_assoc, List.singleton_append]

variable [Backend σ]

/-- A call that sorts adds its keys, or it is refused and leaves the session as it is. -/
theorem run_sort (session : Session σ) (bare : List String) (directed : List (String × String)) :
    session.run (.build (.sort bare directed))
      = match SortKey.ofCall bare directed with
        | .ok keys => (.ok .done, session.withKeys keys)
        | .error fault => (.error fault, session) := by
  simp only [run, Change.on, build_eq, Query.perform]
  cases SortKey.ofCall bare directed <;> rfl

theorem run_sort_eq_ok_iff {session next : Session σ} {bare : List String}
    {directed : List (String × String)} :
    session.run (.build (.sort bare directed)) = (.ok .done, next)
      ↔ ∃ keys, SortKey.ofCall bare directed = .ok keys ∧ next = session.withKeys keys := by
  rw [run_sort]
  cases SortKey.ofCall bare directed with
  | ok keys => simp [eq_comm]
  | error fault => simp

/-- A call that sorts is refused for the first thing that is wrong with it. -/
theorem run_sort_eq_error_iff {session next : Session σ} {bare : List String}
    {directed : List (String × String)} {fault : Fault} :
    session.run (.build (.sort bare directed)) = (.error fault, next)
      ↔ SortKey.Refused bare directed fault ∧ next = session := by
  rw [run_sort, ← SortKey.ofCall_eq_error_iff]
  cases SortKey.ofCall bare directed with
  | ok keys => simp
  | error found => simp [eq_comm]

/-- A call for several keys that succeeds has the effect of calls for one key each. -/
theorem onAll_singles {session next : Session σ} {bare : List String}
    {directed : List (String × String)}
    (h : session.run (.build (.sort bare directed)) = (.ok .done, next)) :
    Change.onAll build session (Call.singles bare directed)
      = ((Call.singles bare directed).map (·, .ok ()), next) := by
  obtain ⟨keys, hkeys, rfl⟩ := run_sort_eq_ok_iff.1 h
  obtain ⟨hnames, hbare, hdirected, rfl⟩ := SortKey.ofCall_eq_ok_iff.1 hkeys
  have hentries : ∀ entry ∈ SortKey.entries bare directed, SortKey.Identifier entry.1 := by
    simp only [SortKey.entries, List.forall_mem_append, List.forall_mem_map]
    exact ⟨hbare, fun pair hpair => (hdirected pair hpair).name⟩
  rw [SortKey.keysOf_eq, Call.singles]
  -- the first call drops the loaded objects, and there is one, as the call names something
  cases hsplit : SortKey.entries bare directed with
  | nil =>
    rw [SortKey.entries, List.append_eq_nil_iff, List.map_eq_nil_iff, List.map_eq_nil_iff] at hsplit
    exact absurd hsplit hnames
  | cons entry entries =>
    rw [hsplit] at hentries
    obtain ⟨hentry, hmore⟩ := List.forall_mem_cons.1 hentries
    simp only [List.map_cons, Change.onAll, on_sortBy hentry, onAll_sortBy session _ hmore,
      List.map_map]
    rfl

/-! ### Calls that have succeeded -/

/-- **The keys are those of the calls that have succeeded.** -/
theorem keys_after (session : Session σ) (events : List (Event σ)) :
    (session.after events).query.sorting.keys
      = session.query.sorting.keys ++ (session.completed events).flatMap Call.sortKeys := by
  rw [session.view_after (fun query => query.sorting.keys) (fun keys call => keys ++ call.sortKeys)
    Query.Built.sortKeys events, List.foldl_append_eq_append, List.flatMap_def]

/-- There is a keyword if there was one, or if a call has given one. -/
theorem keyword_after (session : Session σ) (events : List (Event σ)) :
    (session.after events).query.search.keyword.isSome = true
      ↔ session.query.search.keyword.isSome = true
        ∨ ∃ call ∈ session.completed events, call.part = .keyword := by
  rw [session.view_after (fun query => query.search.keyword.isSome)
    (fun given call => given || call.part = .keyword) Query.Built.keyword events]
  generalize session.query.search.keyword.isSome = given
  induction session.completed events generalizing given with
  | nil => simp
  | cons call calls ih => simp [ih, or_assoc]

/-- **The order of a query is the sum of its calls.**  In every session that can come about, the sort
keys are those of the calls that have succeeded, one after another.  A call for several is refused
iff it names nothing, or a name in it is no attribute or no direction; it has then the fault of the
first of these and leaves the session as it is.  If it succeeds, a call for each bare attribute and
then for each pair does the same.  The request has no sort text iff there is no key, or a keyword has
been given; the text of one key is bare, and that of several is a list.  Different keys never have
the same text. -/
theorem sorting_accumulates (collection : Collection) (defaults : Defaults) (backend : σ)
    (events : List (Event σ)) :
    let session := (start collection defaults backend).after events
    let done := (start collection defaults backend).completed events
    let keys := session.query.sorting.keys
    keys = done.flatMap Call.sortKeys
    ∧ (∀ bare directed,
        ((∃ fault, session.run (.build (.sort bare directed)) = (.error fault, session))
          ↔ (bare = [] ∧ directed = [])
            ∨ (∃ name ∈ bare ++ directed.map Prod.fst, ¬ SortKey.Identifier name)
            ∨ ∃ name ∈ directed.map Prod.snd, ¬ Direction.IsName name)
        ∧ (∀ fault next, session.run (.build (.sort bare directed)) = (.error fault, next) →
          SortKey.Refused bare directed fault ∧ next = session)
        ∧ ∀ next, session.run (.build (.sort bare directed)) = (.ok .done, next) →
          Change.onAll build session (Call.singles bare directed)
            = ((Call.singles bare directed).map (·, .ok ()), next))
    ∧ (∃ request, session.query.fetchRequest = .ok request
      ∧ (request.sort = none ↔ keys = [] ∨ ∃ call ∈ done, call.part = .keyword)
      ∧ ∀ text, request.sort = some text →
        (∃ key, keys = [key] ∧ text = key.wire)
        ∨ 2 ≤ keys.length ∧ text = "[ " ++ ", ".intercalate (keys.map SortKey.wire) ++ " ]")
    ∧ ∀ one other : Sorting, one.wire? = other.wire? → one = other := by
  intro session done keys
  obtain ⟨request, hrequest⟩ := (rendered_start collection defaults backend events).request
  obtain ⟨fields, -, hfetch⟩ := Query.fetchRequest_eq_ok_iff.1 hrequest
  have hsort : request.sort
      = if session.query.search.keyword.isSome then none else session.query.sorting.wire? := by
    rw [hfetch]
    rfl
  have hkeyword : session.query.search.keyword.isSome = true
      ↔ ∃ call ∈ done, call.part = .keyword := by
    simp only [session, keyword_after]
    exact or_iff_right Bool.false_ne_true
  refine ⟨keys_after _ events, fun bare directed => ⟨?_, ?_, ?_⟩, ⟨request, hrequest, ?_, ?_⟩,
    fun one other h => Sorting.wire?_injective h⟩
  · simp only [run_sort_eq_error_iff, and_true, SortKey.exists_refused_iff]
  · exact fun fault next h => run_sort_eq_error_iff.1 h
  · exact fun next h => onAll_singles h
  · rw [hsort, ← hkeyword]
    split
    · rename_i h
      simp [h]
    · rename_i h
      simp [h, Sorting.wire?_eq_none_iff, keys]
  · intro text htext
    rw [hsort] at htext
    split at htext
    · cases htext
    · exact Sorting.wire?_eq_some_iff.1 htext

end Session

end VectorQuery
