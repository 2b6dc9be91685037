import Mathlib
import VectorQuery.Proofs.Outcome
import VectorQuery.Query.Call

/-!
# What a call can do

Each call that builds a query either fails and writes nothing, or writes one part of the query.  
This is said once, by two relations with a constructor for each call; what a call leaves alone is
read off from them.

* `Search.softened` — what becomes of the quotes of a text that is given;
* `Search.Given`, `Query.Built` — a query before and after a call that succeeds;
* `Query.perform_cases` — **a call fails without a trace, or does what `Built` says**;
* `Part`, `Call.part` — the part of a query that a call names;
* `Query.AgreesOutside`, `FetchRequest.AgreesOutside` — queries and requests that differ in one part
  at most;
* `Query.Built.request` — the request changes in the part that the call names, and a keyword takes
  the sort keys away.
-/

namespace VectorQuery

open Outcome

/-! ### Changes -/

namespace Change

variable {σ α β : Type}

theorem check_ok_bind {x : Except Fault α} {a : α} (h : x = .ok a) (f : α → Change σ β)
    (state : σ) :
    (check x >>= f) state = f a state := by
  subst h
  rfl

theorem check_error_bind {x : Except Fault α} {fault : Fault} (h : x = .error fault)
    (f : α → Change σ β) (state : σ) :
    (check x >>= f) state = .error fault state := by
  subst h
  rfl

/-- A change fails without a trace, or it succeeds with a state of the given kind. -/
def Clean (change : Change σ Unit) (state : σ) (good : σ → Prop) : Prop :=
  (∃ fault, change state = .error fault state) ∨ ∃ next, change state = .ok () next ∧ good next

/-- A test before a write. -/
theorem clean_check_modify {x : Except Fault α} {write : α → σ → σ} {state : σ} {good : σ → Prop}
    (h : ∀ a, x = .ok a → good (write a state)) :
    Clean (check x >>= fun a => modify (write a)) state good := by
  cases hx : x with
  | error fault => exact Or.inl ⟨fault, rfl⟩
  | ok a => exact Or.inr ⟨write a state, rfl, h a hx⟩

end Change

/-! ### Searches -/

namespace Search

/-- A character of a given text as it is kept: an apostrophe in the place of a double quote. -/
def softened : Char → Char
  | '"' => '\x27'
  | c => c

theorem softenQuotes_eq_map : softenQuotes = String.map softened := by
  funext text
  rw [← String.toList_inj, softenQuotes, String.toList_ofList, String.toList_map]
  refine List.map_congr_left fun c _ => ?_
  rw [softened.eq_def]
  split <;> simp_all

/-- The directives before and after a call that succeeds. -/
inductive Given (search : Search) : SearchCall Binary64 → Search → Prop
  | nearText {phrases : List String} {distance : Binary64} (hdistance : distance.isFinite = true) :
      Given search (.nearText phrases distance)
        { search with
          phrases := search.phrases ++ phrases.map (String.map softened)
          phraseDistance := some distance }
  | nearVector {vector : List Binary64} {distance : Binary64}
      (hvector : ∀ x ∈ vector, x.isFinite = true)
      (hdistance : distance.isFinite = true) :
      Given search (.nearVector vector distance) { search with vector := some (vector, distance) }
  | nearObjectId {id : String} {distance : Binary64}
      (hid : (Uuid.ofHyphenated? id.toList).isSome = true)
      (hdistance : distance.isFinite = true) :
      Given search (.nearObjectId id distance) { search with object := some (id, distance) }
  | nearObject {id : String} {distance : Binary64}
      (hid : (Uuid.ofHyphenated? id.toList).isSome = true)
      (hdistance : distance.isFinite = true) :
      Given search (.nearObject (some id) distance) { search with object := some (id, distance) }
  | byKeyword {text : String} {attributes : List String} {prompt : Prompt}
      (h : Prompt.of text attributes = .ok prompt) :
      Given search (.byKeyword text attributes) { search with keyword := some prompt }
  | byQuestion {text : String} {attributes : List String} {prompt : Prompt}
      (h : Prompt.of text attributes = .ok prompt) :
      Given search (.byQuestion text attributes) { search with question := some prompt }

theorem finiteDistance_eq_ok_iff {distance found : Binary64} :
    finiteDistance distance = .ok found ↔ distance.isFinite = true ∧ found = distance := by
  rw [finiteDistance]
  split
  · rename_i h
    simp [h, eq_comm]
  · rename_i h
    simp [h]

theorem clean_nearObjectId (id : String) (distance : Binary64) (search : Search) :
    Change.Clean (nearObjectId id distance) search fun next =>
      (Uuid.ofHyphenated? id.toList).isSome = true ∧ distance.isFinite = true
      ∧ next = { search with object := some (id, distance) } := by
  rw [nearObjectId]
  by_cases hid : (Uuid.ofHyphenated? id.toList).isNone = true
  · rw [if_pos hid]
    exact Or.inl ⟨_, rfl⟩
  · rw [if_neg hid]
    refine Change.clean_check_modify fun found hfound => ?_
    obtain ⟨hdistance, rfl⟩ := finiteDistance_eq_ok_iff.1 hfound
    exact ⟨by simpa [Option.isSome_iff_ne_none] using hid, hdistance, rfl⟩

/-- A call fails without a trace, or gives its directive. -/
theorem perform_cases (call : SearchCall Binary64) (search : Search) :
    Change.Clean (perform call) search (Given search call) := by
  cases call with
  | nearText phrases distance =>
    show Change.Clean (nearText phrases distance) search _
    cases hdistance : finiteDistance distance with
    | error fault => exact Or.inl ⟨fault, Change.check_error_bind hdistance _ _⟩
    | ok found =>
      obtain ⟨hfinite, rfl⟩ := finiteDistance_eq_ok_iff.1 hdistance
      refine Or.inr ⟨_, Change.check_ok_bind hdistance _ _, ?_⟩
      rw [softenQuotes_eq_map]
      exact .nearText hfinite
  | nearVector vector distance =>
    show Change.Clean (nearVector vector distance) search _
    rw [nearVector]
    cases hbad : vector.find? (!·.isFinite) with
    | some bad => exact Or.inl ⟨_, rfl⟩
    | none =>
      refine Change.clean_check_modify fun found hfound => ?_
      obtain ⟨hdistance, rfl⟩ := finiteDistance_eq_ok_iff.1 hfound
      exact .nearVector (by simpa using hbad) hdistance
  | nearObjectId id distance =>
    rcases clean_nearObjectId id distance search with hfault | ⟨next, hnext, hid, hdistance, rfl⟩
    · exact Or.inl hfault
    · exact Or.inr ⟨_, hnext, .nearObjectId hid hdistance⟩
  | nearObject id distance =>
    cases id with
    | none => exact Or.inl ⟨_, rfl⟩
    | some id =>
      rcases clean_nearObjectId id distance search with hfault | ⟨next, hnext, hid, hdistance, rfl⟩
      · exact Or.inl hfault
      · exact Or.inr ⟨_, hnext, .nearObject hid hdistance⟩
  | byKeyword text attributes => exact Change.clean_check_modify fun _ h => .byKeyword h
  | byQuestion text attributes => exact Change.clean_check_modify fun _ h => .byQuestion h

end Search

/-! ### Queries -/

namespace Query

/-- A query before and after a call that succeeds. -/
inductive Built (query : Query) : Call → Query → Prop
  | restrict {clause : Clause} {condition : Condition} (h : clause.condition = .ok condition) :
      Built query (.restrict clause) (query.addCondition condition)
  | sort {bare : List String} {directed : List (String × String)} {keys : List SortKey}
      (h : SortKey.ofCall bare directed = .ok keys) :
      Built query (.sort bare directed) { query with sorting := query.sorting.extend keys }
  | sortBy {name : String} {direction : Direction} {key : SortKey}
      (h : SortKey.of name direction = .ok key) :
      Built query (.sortBy name direction) { query with sorting := query.sorting.extend [key] }
  | select {names : List String} {nested : Option Json} {selection : Selection}
      (h : query.selection.select names nested = .ok selection) :
      Built query (.select names nested) { query with selection }
  | limit {text limit : String} (h : pagingText "limit" text = .ok limit) :
      Built query (.limit text) { query with limit }
  | offset {text offset : String} (h : pagingText "offset" text = .ok offset) :
      Built query (.offset text) { query with offset }
  | search {call : SearchCall (Option Binary64)} {search : Search}
      (hphrases : call.lacksPhrases = false)
      (h : query.search.Given (call.map query.distanceOr) search) :
      Built query (.search call) (query.withSearch search)

/-- **A call fails without a trace, or does what `Built` says.** -/
theorem perform_cases (call : Call) (query : Query) :
    Change.Clean (perform call) query (Built query call) := by
  cases call with
  | restrict clause => exact Change.clean_check_modify fun _ h => .restrict h
  | sort bare directed => exact Change.clean_check_modify fun _ h => .sort h
  | sortBy name direction => exact Change.clean_check_modify fun _ h => .sortBy h
  | select names nested =>
    cases hselect : query.selection.select names nested with
    | error fault => exact Or.inl ⟨fault, Change.check_error_bind hselect _ query⟩
    | ok selection => exact Or.inr ⟨_, Change.check_ok_bind hselect _ query, .select hselect⟩
  | limit text => exact Change.clean_check_modify fun _ h => .limit h
  | offset text => exact Change.clean_check_modify fun _ h => .offset h
  | search call =>
    by_cases hphrases : call.lacksPhrases = true
    · exact Or.inl ⟨_, by simp only [perform, hphrases, if_true]; rfl⟩
    · have hperform : perform (.search call) query
          = Change.within (·.search) withSearch (Search.perform (call.map query.distanceOr)) query := by
        simp only [perform, hphrases]
        rfl
      rcases Search.perform_cases (call.map query.distanceOr) query.search with
        ⟨fault, hfault⟩ | ⟨search, hsearch, hgiven⟩
      · refine Or.inl ⟨fault, ?_⟩
        rw [hperform, Change.within, hfault]
        rfl
      · refine Or.inr ⟨query.withSearch search, ?_, .search (by simpa using hphrases) hgiven⟩
        rw [hperform, Change.within, hsearch]

/-! ### Parts -/

/-- A part of a query that a call may name. -/
inductive Part
  | condition
  | sorting
  | selection
  | limit
  | offset
  | phrases
  | vector
  | object
  | keyword
  | question
deriving DecidableEq

end Query

/-- The part that a search names. -/
def SearchCall.part {δ : Type} : SearchCall δ → Query.Part
  | .nearText _ _ => .phrases
  | .nearVector _ _ => .vector
  | .nearObjectId _ _ => .object
  | .nearObject _ _ => .object
  | .byKeyword _ _ => .keyword
  | .byQuestion _ _ => .question

/-- The part that a call names. -/
def Call.part : Call → Query.Part
  | .restrict _ => .condition
  | .sort _ _ => .sorting
  | .sortBy _ _ => .sorting
  | .select _ _ => .selection
  | .limit _ => .limit
  | .offset _ => .offset
  | .search call => call.part

/-- Directives that differ in one part at most. -/
structure Search.AgreesOutside (part : Query.Part) (before after : Search) : Prop where
  phrases : part ≠ .phrases →
    after.phrases = before.phrases ∧ after.phraseDistance = before.phraseDistance
  vector : part ≠ .vector → after.vector = before.vector
  object : part ≠ .object → after.object = before.object
  keyword : part ≠ .keyword → after.keyword = before.keyword
  question : part ≠ .question → after.question = before.question

/-- Queries that differ in one part at most. -/
structure Query.AgreesOutside (part : Query.Part) (before after : Query) : Prop where
  collection : after.collection = before.collection
  defaults : after.defaults = before.defaults
  condition : part ≠ .condition → after.condition = before.condition
  sorting : part ≠ .sorting → after.sorting = before.sorting
  selection : part ≠ .selection → after.selection = before.selection
  limit : part ≠ .limit → after.limit = before.limit
  offset : part ≠ .offset → after.offset = before.offset
  search : before.search.AgreesOutside part after.search

/-- Requests that differ in one part at most, and in that a keyword takes the sort keys away. -/
structure FetchRequest.AgreesOutside (part : Query.Part) (before after : FetchRequest) : Prop where
  collection : after.collection = before.collection
  limit : part ≠ .limit → after.limit = before.limit
  offset : part ≠ .offset → after.offset = before.offset
  fields : part ≠ .selection → after.fields = before.fields
  nearText : part ≠ .phrases → after.nearText = before.nearText
  nearVector : part ≠ .vector → after.nearVector = before.nearVector
  nearObject : part ≠ .object → after.nearObject = before.nearObject
  keyword : part ≠ .keyword → after.keyword = before.keyword
  condition : part ≠ .condition → after.condition = before.condition
  sort : part ≠ .sorting → after.sort = before.sort ∨ part = .keyword ∧ after.sort = none
  question : part ≠ .question → after.question = before.question

theorem Search.AgreesOutside.refl (part : Query.Part) (search : Search) :
    search.AgreesOutside part search :=
  ⟨fun _ => ⟨rfl, rfl⟩, fun _ => rfl, fun _ => rfl, fun _ => rfl, fun _ => rfl⟩

/-- A search changes the part that it names. -/
theorem Search.Given.agrees {δ : Type} {f : δ → Binary64} {call : SearchCall δ}
    {before after : Search}
    (h : before.Given (call.map f) after) : before.AgreesOutside call.part after := by
  cases call <;> cases h <;> constructor <;> intro hpart <;>
    first | rfl | exact ⟨rfl, rfl⟩ | exact absurd rfl hpart

namespace Query

/-- A call changes the part that it names. -/
theorem Built.agrees {before after : Query} {call : Call} (h : before.Built call after) :
    before.AgreesOutside call.part after := by
  cases h with
  | search _ h =>
      exact ⟨rfl, rfl, fun _ => rfl, fun _ => rfl, fun _ => rfl, fun _ => rfl, fun _ => rfl, h.agrees⟩
  | _ =>
    constructor
    all_goals first
      | exact Search.AgreesOutside.refl _ _
      | rfl
      | (intro hpart; first | rfl | exact absurd rfl hpart)

/-! ### Requests -/

theorem fetchRequest_eq_ok_iff {query : Query} {request : FetchRequest} :
    query.fetchRequest = .ok request
      ↔ ∃ fields, query.selection.render query.collection.attributes = .ok fields
        ∧ request = {
            collection := query.collection.name
            limit := query.limit
            offset := query.offset
            fields
            nearText := query.search.nearTextWire?
            nearVector := query.search.nearVectorWire?
            nearObject := query.search.nearObjectWire?
            keyword := query.search.keywordWire?
            condition := query.conditionWire?
            sort := query.sortWire?
            question := query.search.questionWire? } := by
  rw [fetchRequest, bind_eq_ok_iff]
  constructor
  · intro h
    obtain ⟨fields, hfields, h⟩ := h
    cases h
    exact ⟨fields, hfields, rfl⟩
  · intro h
    obtain ⟨fields, hfields, rfl⟩ := h
    exact ⟨fields, hfields, rfl⟩

/-- Queries that differ in one part have requests that differ in that part, and a keyword takes the
sort keys away. -/
theorem AgreesOutside.request {part : Part} {before after : Query}
    (h : before.AgreesOutside part after)
    {old new : FetchRequest}
    (hold : before.fetchRequest = .ok old) (hnew : after.fetchRequest = .ok new)
    (hkeyword : part = .keyword → after.search.keyword.isSome = true) :
    old.AgreesOutside part new := by
  obtain ⟨fields, hfields, rfl⟩ := fetchRequest_eq_ok_iff.1 hold
  obtain ⟨fields', hfields', rfl⟩ := fetchRequest_eq_ok_iff.1 hnew
  constructor
  · show after.collection.name = before.collection.name
    rw [h.collection]
  · exact h.limit
  · exact h.offset
  · intro hpart
    rw [h.selection hpart, h.collection] at hfields'
    exact Except.ok.inj (hfields'.symm.trans hfields)
  · intro hpart
    show after.search.nearTextWire? = before.search.nearTextWire?
    obtain ⟨hphrases, hdistance⟩ := h.search.phrases hpart
    rw [Search.nearTextWire?, Search.nearTextWire?, hphrases, hdistance]
  · intro hpart
    show after.search.nearVectorWire? = before.search.nearVectorWire?
    rw [Search.nearVectorWire?, Search.nearVectorWire?, h.search.vector hpart]
  · intro hpart
    show after.search.nearObjectWire? = before.search.nearObjectWire?
    rw [Search.nearObjectWire?, Search.nearObjectWire?, h.search.object hpart]
  · intro hpart
    show after.search.keywordWire? = before.search.keywordWire?
    rw [Search.keywordWire?, Search.keywordWire?, h.search.keyword hpart]
  · intro hpart
    show after.conditionWire? = before.conditionWire?
    rw [conditionWire?, conditionWire?, h.condition hpart]
  · intro hpart
    show after.sortWire? = before.sortWire? ∨ part = .keyword ∧ after.sortWire? = none
    rw [sortWire?, sortWire?, h.sorting hpart]
    by_cases hword : part = .keyword
    · exact Or.inr ⟨hword, if_pos (hkeyword hword)⟩
    · rw [h.search.keyword hword]
      exact Or.inl rfl
  · intro hpart
    show after.search.questionWire? = before.search.questionWire?
    rw [Search.questionWire?, Search.questionWire?, h.search.question hpart]

/-- The request changes in the part that a call names, and a keyword takes the sort keys away. -/
theorem Built.request {before after : Query} {call : Call} (h : before.Built call after)
    {old new : FetchRequest}
    (hold : before.fetchRequest = .ok old) (hnew : after.fetchRequest = .ok new) :
    old.AgreesOutside call.part new := by
  refine h.agrees.request hold hnew fun hpart => ?_
  cases h with
  | @search call search _ h =>
    cases call <;> cases hpart
    cases h
    rfl
  | _ => cases hpart

/-! ### Selections that can be written -/

/-- The selection of a query can be written. -/
def Rendered (query : Query) : Prop := ∃ fields, query.selection.fields = .ok fields

theorem rendered_new (collection : Collection) (defaults : Defaults) :
    (new collection defaults).Rendered :=
  ⟨"", rfl⟩

theorem select_rendered {selection next : Selection} {names : List String} {nested : Option Json}
    (h : selection.select names nested = .ok next) : ∃ fields, next.fields = .ok fields := by
  -- whatever is merged, the result is written once before it is kept
  have hkept : ∀ candidate : Selection, (candidate.fields >>= fun _ => pure candidate) = .ok next →
      ∃ fields, next.fields = .ok fields := by
    intro candidate hcandidate
    obtain ⟨fields, hfields, hsame⟩ := bind_eq_ok_iff.1 hcandidate
    cases hsame
    exact ⟨fields, hfields⟩
  rw [Selection.select.eq_def] at h
  dsimp only at h
  split at h
  · exact hkept _ h
  · exact hkept _ h
  · cases h

/-- No call leaves a selection that cannot be written. -/
theorem Built.rendered {before after : Query} {call : Call} (h : before.Built call after)
    (hbefore : before.Rendered) :
    after.Rendered := by
  cases h with
  | select h => exact select_rendered h
  | _ => exact hbefore

/-- A query whose selection can be written has a request. -/
theorem Rendered.request {query : Query} (h : query.Rendered) :
    ∃ request, query.fetchRequest = .ok request := by
  obtain ⟨fields, hfields⟩ := h
  have hrender : ∃ text, query.selection.render query.collection.attributes = .ok text := by
    rw [Selection.render]
    split
    · exact ⟨_, rfl⟩
    · exact ⟨_, map_eq_ok_iff.2 ⟨fields, hfields, rfl⟩⟩
  obtain ⟨text, htext⟩ := hrender
  exact ⟨_, fetchRequest_eq_ok_iff.2 ⟨text, htext, rfl⟩⟩

end Query

end VectorQuery
