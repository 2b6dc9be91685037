import Mathlib
import VectorQuery.Backend.Scripted
import VectorQuery.Proofs.Change
import VectorQuery.Proofs.Query.Calls
import VectorQuery.Proofs.Session.Steps

/-!
# Calls on different parts do not meet

A call reads and writes the part of a query that it names, and no other.  So a part goes through a
sequence of calls as if the calls that name it were the only ones, and the order among calls that
name different parts does not matter.

* `Query.only` — a query with one of its parts, and the others as they are in a new query;
* `Query.eq_of_only` — the parts make up the query;
* `Query.perform_only`, `Query.perform_frame` — a call does the same to its part alone, and nothing
  to the others;
* `Query.onAll_only` — a part goes through a sequence of calls as if no other part was named in it;
* `Session.build_interleaved` — **sequences with the same calls on each part answer the same and end
  in the same query**.
-/

namespace VectorQuery

/-! ### Parts alone -/

namespace Search

/-- The directives with one of their parts alone. -/
def only (search : Search) : Query.Part → Search
  | .phrases => { phrases := search.phrases, phraseDistance := search.phraseDistance }
  | .vector => { vector := search.vector }
  | .object => { object := search.object }
  | .keyword => { keyword := search.keyword }
  | .question => { question := search.question }
  | _ => {}

/-- A search does the same to the part that it names when this part is alone. -/
theorem perform_only (call : SearchCall Binary64) (search : Search) :
    (perform call).on (search.only call.part)
      = (((perform call).on search).1, ((perform call).on search).2.only call.part) := by
  have hid : ∀ id distance, (nearObjectId id distance).on (search.only .object)
      = (((nearObjectId id distance).on search).1,
        ((nearObjectId id distance).on search).2.only .object) := by
    intro id distance
    simp only [nearObjectId]
    by_cases hnone : (Uuid.ofHyphenated? id.toList).isNone = true
    · rw [if_pos hnone]
      rfl
    · rw [if_neg hnone]
      cases hdistance : finiteDistance distance <;> rfl
  cases call with
  | nearText phrases distance =>
    simp only [perform, nearText, Change.on]
    cases finiteDistance distance <;> rfl
  | nearVector vector distance =>
    simp only [perform, nearVector, Change.on]
    cases vector.find? (!·.isFinite) with
    | some bad => rfl
    | none => cases finiteDistance distance <;> rfl
  | nearObjectId id distance => exact hid id distance
  | nearObject id distance =>
    cases id with
    | none => rfl
    | some id => exact hid id distance
  | byKeyword text attributes =>
    simp only [perform, byKeyword, Change.on]
    cases Prompt.of text attributes <;> rfl
  | byQuestion text attributes =>
    simp only [perform, byQuestion, Change.on]
    cases Prompt.of text attributes <;> rfl

end Search

namespace Query

/-- A query with one of its parts alone; the others are as in a new query. -/
def only (query : Query) (part : Part) : Query :=
  let fresh := Query.new query.collection query.defaults
  match part with
  | .condition => { fresh with condition := query.condition }
  | .sorting => { fresh with sorting := query.sorting }
  | .selection => { fresh with selection := query.selection }
  | .limit => { fresh with limit := query.limit }
  | .offset => { fresh with offset := query.offset }
  | part => { fresh with search := query.search.only part }

/-- The query whose parts are taken from several queries. -/
def assemble (parts : Part → Query) : Query where
  collection := (parts .condition).collection
  defaults := (parts .condition).defaults
  condition := (parts .condition).condition
  sorting := (parts .sorting).sorting
  selection := (parts .selection).selection
  search := {
    phrases := (parts .phrases).search.phrases
    phraseDistance := (parts .phrases).search.phraseDistance
    vector := (parts .vector).search.vector
    object := (parts .object).search.object
    keyword := (parts .keyword).search.keyword
    question := (parts .question).search.question }
  limit := (parts .limit).limit
  offset := (parts .offset).offset

theorem assemble_only (query : Query) : assemble query.only = query := rfl

/-- The parts make up the query. -/
theorem eq_of_only {query other : Query} (h : ∀ part, query.only part = other.only part) :
    query = other := by
  rw [← assemble_only query, ← assemble_only other, funext h]

theorem only_defaults (query : Query) (part : Part) : (query.only part).defaults = query.defaults := by
  cases part <;> rfl

/-! ### Calls -/

theorem on_select (names : List String) (nested : Option Json) (query : Query) :
    (perform (.select names nested)).on query
      = match query.selection.select names nested with
        | .ok selection => (.ok (), { query with selection })
        | .error fault => (.error fault, query) := by
  cases hselect : query.selection.select names nested with
  | error fault =>
    have hrun : perform (.select names nested) query = .error fault query :=
      Change.check_error_bind hselect _ query
    rw [Change.on, hrun]
  | ok selection =>
    have hrun : perform (.select names nested) query = .ok () { query with selection } :=
      Change.check_ok_bind hselect _ query
    rw [Change.on, hrun]

theorem on_search {call : SearchCall (Option Binary64)} (hphrases : call.lacksPhrases = false)
    (query : Query) :
    (perform (.search call)).on query
      = (((Search.perform (call.map query.distanceOr)).on query.search).1,
        query.withSearch ((Search.perform (call.map query.distanceOr)).on query.search).2) := by
  have hperform : (perform (.search call)).on query
      = (Change.within (·.search) withSearch (Search.perform (call.map query.distanceOr))).on query := by
    simp only [perform, hphrases]
    rfl
  rw [hperform, Change.on_within]

/-- A call does the same to the part that it names when this part is alone. -/
theorem perform_only (call : Call) (query : Query) :
    (perform call).on (query.only call.part)
      = (((perform call).on query).1, ((perform call).on query).2.only call.part) := by
  cases call with
  | restrict clause =>
    simp only [perform, Change.on]
    cases clause.condition <;> rfl
  | sort bare directed =>
    simp only [perform, Change.on]
    cases SortKey.ofCall bare directed <;> rfl
  | sortBy name direction =>
    simp only [perform, Change.on]
    cases SortKey.of name direction <;> rfl
  | select names nested =>
    rw [on_select, on_select]
    show (match query.selection.select names nested with | .ok _ => _ | .error _ => _) = _
    cases query.selection.select names nested <;> rfl
  | limit text =>
    simp only [perform, Change.on]
    cases pagingText "limit" text <;> rfl
  | offset text =>
    simp only [perform, Change.on]
    cases pagingText "offset" text <;> rfl
  | search call =>
    cases hphrases : call.lacksPhrases with
    | true =>
      simp only [perform, hphrases, if_true]
      rfl
    | false =>
      have hdistance : (query.only call.part).distanceOr = query.distanceOr := by
        funext distance
        rw [distanceOr, distanceOr, only_defaults]
      have hpart : (call.map query.distanceOr).part = call.part := by cases call <;> rfl
      have hsearch : (query.only call.part).search = query.search.only call.part := by
        cases call <;> rfl
      have hwrite : ∀ search, (query.withSearch search).only call.part
          = (query.only call.part).withSearch (search.only call.part) := by
        intro search
        cases call <;> rfl
      have honly := Search.perform_only (call.map query.distanceOr) query.search
      rw [hpart] at honly
      show (perform (.search call)).on (query.only call.part) = _
      rw [on_search hphrases, on_search hphrases, hdistance, hsearch, honly]
      show _ = (_, (query.withSearch _).only call.part)
      rw [hwrite]

theorem AgreesOutside.only {named part : Part} {before after : Query}
    (h : before.AgreesOutside named after) (hpart : part ≠ named) :
    after.only part = before.only part := by
  have hnamed := hpart.symm
  cases part with
  | condition => simp only [Query.only, h.collection, h.defaults, h.condition hnamed]
  | sorting => simp only [Query.only, h.collection, h.defaults, h.sorting hnamed]
  | selection => simp only [Query.only, h.collection, h.defaults, h.selection hnamed]
  | limit => simp only [Query.only, h.collection, h.defaults, h.limit hnamed]
  | offset => simp only [Query.only, h.collection, h.defaults, h.offset hnamed]
  | phrases =>
    obtain ⟨hphrases, hdistance⟩ := h.search.phrases hnamed
    simp only [Query.only, Search.only, h.collection, h.defaults, hphrases, hdistance]
  | vector =>
    simp only [Query.only, Search.only, h.collection, h.defaults, h.search.vector hnamed]
  | object =>
    simp only [Query.only, Search.only, h.collection, h.defaults, h.search.object hnamed]
  | keyword =>
    simp only [Query.only, Search.only, h.collection, h.defaults, h.search.keyword hnamed]
  | question =>
    simp only [Query.only, Search.only, h.collection, h.defaults, h.search.question hnamed]

/-- A call does nothing to the parts that it does not name. -/
theorem perform_frame {call : Call} {part : Part} (hpart : part ≠ call.part) (query : Query) :
    ((perform call).on query).2.only part = query.only part := by
  rcases perform_cases call query with ⟨fault, hfault⟩ | ⟨next, hnext, hbuilt⟩
  · rw [Change.on, hfault]
  · rw [Change.on, hnext]
    exact hbuilt.agrees.only hpart

/-! ### Sequences of calls -/

/-- A part goes through a sequence of calls as if no other part was named in it. -/
theorem onAll_only (part : Part) (query : Query) (calls : List Call) :
    Change.onAll perform (query.only part) (calls.filter (·.part = part))
      = ((Change.onAll perform query calls).1.filter (·.1.part = part),
        (Change.onAll perform query calls).2.only part) := by
  induction calls generalizing query with
  | nil => rfl
  | cons call calls ih =>
    have hrest := ih ((perform call).on query).2
    by_cases hpart : call.part = part
    · subst hpart
      rw [List.filter_cons_of_pos (by simp)]
      simp only [Change.onAll, perform_only, hrest]
      rw [List.filter_cons_of_pos (by simp)]
    · rw [perform_frame (Ne.symm hpart)] at hrest
      rw [List.filter_cons_of_neg (by simpa using hpart), hrest]
      simp only [Change.onAll]
      rw [List.filter_cons_of_neg (by simpa using hpart)]

/-- Sequences with the same calls on each part answer the same and end in the same query. -/
theorem onAll_interleaved (query : Query) {first second : List Call}
    (hsame : ∀ part, first.filter (·.part = part) = second.filter (·.part = part)) :
    (∀ part, (Change.onAll perform query first).1.filter (·.1.part = part)
      = (Change.onAll perform query second).1.filter (·.1.part = part))
    ∧ (Change.onAll perform query first).2 = (Change.onAll perform query second).2 := by
  have honly : ∀ part, (_, _) = (_, _) := fun part =>
    (onAll_only part query first).symm.trans ((hsame part).symm ▸ onAll_only part query second)
  exact ⟨fun part => (Prod.mk.inj (honly part)).1,
    eq_of_only fun part => (Prod.mk.inj (honly part)).2⟩

end Query

/-! ### Sessions -/

namespace Session

variable {σ τ : Type}

/-- Calls that build a session build its query. -/
theorem onAll_build (session : Session σ) (calls : List Call) :
    (Change.onAll build session calls).1 = (Change.onAll Query.perform session.query calls).1
    ∧ (Change.onAll build session calls).2.query
      = (Change.onAll Query.perform session.query calls).2 := by
  induction calls generalizing session with
  | nil => exact ⟨rfl, rfl⟩
  | cons call calls ih =>
    have hcall : ((build call).on session).1 = ((Query.perform call).on session.query).1
        ∧ ((build call).on session).2.query = ((Query.perform call).on session.query).2 := by
      simp only [Change.on, build_eq]
      cases Query.perform call session.query <;> exact ⟨rfl, rfl⟩
    obtain ⟨hanswers, hquery⟩ := ih ((build call).on session).2
    rw [hcall.2] at hanswers hquery
    simp only [Change.onAll, hanswers, hquery, hcall.1]
    exact ⟨trivial, trivial⟩

/-- **Calls on different parts commute.**  Two sessions have the same query, as two new ones on the
same collection and with the same defaults have.  If two sequences hold the same calls on each part,
in the same order within the part, then each call answers the same in both, and both end in the same
query, from which all requests are made. -/
theorem build_interleaved (session : Session σ) (other : Session τ)
    (hquery : session.query = other.query) {first second : List Call}
    (hsame : ∀ part, first.filter (·.part = part) = second.filter (·.part = part)) :
    let one := Change.onAll build session first
    let two := Change.onAll build other second
    (∀ part, one.1.filter (·.1.part = part) = two.1.filter (·.1.part = part))
    ∧ one.2.query = two.2.query := by
  intro one two
  obtain ⟨hone, honequery⟩ := onAll_build session first
  obtain ⟨htwo, htwoquery⟩ := onAll_build other second
  have hqueries := Query.onAll_interleaved session.query hsame
  rw [show one.1 = _ from hone, show two.1 = _ from htwo, show one.2.query = _ from honequery,
    show two.2.query = _ from htwoquery, ← hquery]
  exact hqueries

/-- Sort keys, a limit that fails, a keyword and a limit. -/
def sortFirst : List Call :=
  [.sort ["title"] [], .limit "-1", .search (.byKeyword "dune" []), .limit "5"]

/-- The same calls on each part, the keyword first and the sort keys last. -/
def keywordFirst : List Call :=
  [.search (.byKeyword "dune" []), .limit "-1", .limit "5", .sort ["title"] []]

/-- The sort keys and the keyword may change places, though only one of them is sent. -/
theorem build_interleaved_keywordFirst :
    let session := start ⟨"Article", ["title"]⟩ ⟨.nan, 25⟩ ({} : ScriptedBackend)
    (∀ part, sortFirst.filter (·.part = part) = keywordFirst.filter (·.part = part))
    ∧ (Change.onAll build session sortFirst).2.query
      = (Change.onAll build session keywordFirst).2.query := by
  intro session
  have hsame : ∀ part,
      sortFirst.filter (·.part = part) = keywordFirst.filter (·.part = part) := by
    intro part
    cases part <;> rfl
  exact ⟨hsame, (build_interleaved session session rfl hsame).2⟩

end Session

end VectorQuery
