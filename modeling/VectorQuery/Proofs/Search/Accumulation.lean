import Mathlib
import VectorQuery.Proofs.Change
import VectorQuery.Proofs.Query.Calls

/-!
# Searches add up or replace each other

The directives after any calls are a function of the calls that have succeeded: phrases add up, and
of each other kind the last call counts.

* `SearchCall.phrases`, `SearchCall.vector?`, … — what a call gives;
* `SearchCall.isSound` — the calls that are to succeed, and `Search.succeeded_onAll`, that they do;
* `Search.ofCalls` — the directives after calls that have succeeded;
* `Search.Given.ofCalls` — one more call gives the directives of one call more;
* `Search.onAll_ofCalls` — **after any calls, the directives are those of the calls that have
  succeeded**.
-/

namespace VectorQuery

/-! ### What calls give -/

namespace SearchCall

variable {δ : Type}

/-- The phrases of a call. -/
@[simp] def phrases : SearchCall δ → List String
  | .nearText phrases _ => phrases
  | _ => []

/-- The distance for the phrases. -/
@[simp] def phraseDistance? : SearchCall δ → Option δ
  | .nearText _ distance => some distance
  | _ => none

/-- The vector and its distance. -/
@[simp] def vector? : SearchCall δ → Option (List Binary64 × δ)
  | .nearVector vector distance => some (vector, distance)
  | _ => none

/-- The id of the object, given as it is or by an object that has it, and its distance. -/
@[simp] def object? : SearchCall δ → Option (String × δ)
  | .nearObjectId id distance => some (id, distance)
  | .nearObject (some id) distance => some (id, distance)
  | _ => none

/-- The keywords. -/
@[simp] def keyword? : SearchCall δ → Option Prompt
  | .byKeyword text attributes => some ⟨text, attributes⟩
  | _ => none

/-- The question. -/
@[simp] def question? : SearchCall δ → Option Prompt
  | .byQuestion text attributes => some ⟨text, attributes⟩
  | _ => none

/-- Whether a call is to succeed: its numbers are finite, its id is in hyphenated form, its text is
not empty. -/
def isSound : SearchCall Binary64 → Bool
  | .nearText _ distance => distance.isFinite
  | .nearVector vector distance => vector.all (·.isFinite) && distance.isFinite
  | .nearObjectId id distance => (Uuid.ofHyphenated? id.toList).isSome && distance.isFinite
  | .nearObject id distance =>
    id.any (fun id => (Uuid.ofHyphenated? id.toList).isSome) && distance.isFinite
  | .byKeyword text _ => !text.isEmpty
  | .byQuestion text _ => !text.isEmpty

end SearchCall

/-- A prompt with every double quote of its text turned into an apostrophe. -/
def Prompt.soften (prompt : Prompt) : Prompt :=
  ⟨prompt.text.map Search.softened, prompt.attributes⟩

namespace Search

/-- What the last of the calls gives that give something. -/
def lastOf {β : Type} (give : SearchCall Binary64 → Option β) (calls : List (SearchCall Binary64)) :
    Option β :=
  (calls.filterMap give).getLast?

theorem lastOf_append {β : Type} (give : SearchCall Binary64 → Option β)
    (calls : List (SearchCall Binary64)) (call : SearchCall Binary64) :
    lastOf give (calls ++ [call]) = (give call).or (lastOf give calls) := by
  rw [lastOf, List.filterMap_append, List.getLast?_append]
  cases h : give call <;> simp [h, lastOf]

theorem exists_of_lastOf {β : Type} {give : SearchCall Binary64 → Option β}
    {calls : List (SearchCall Binary64)} {given : β} (h : lastOf give calls = some given) :
    ∃ call ∈ calls, give call = some given :=
  List.mem_filterMap.1 (List.mem_of_getLast? h)

/-- There is a last one as soon as one call gives something. -/
theorem isSome_map_lastOf_iff {β γ : Type} {give : SearchCall Binary64 → Option β} {f : β → γ}
    {calls : List (SearchCall Binary64)} :
    ((lastOf give calls).map f).isSome = true ↔ ∃ call ∈ calls, (give call).isSome = true := by
  rw [Option.isSome_map, lastOf, List.getLast?_isSome, Ne, List.filterMap_eq_nil_iff]
  simp [Option.isSome_iff_ne_none]

/-! ### Directives after calls -/

/-- The directives after calls that have succeeded. -/
def ofCalls (calls : List (SearchCall Binary64)) : Search where
  phrases := (calls.flatMap (·.phrases)).map (String.map softened)
  phraseDistance := lastOf (·.phraseDistance?) calls
  vector := lastOf (·.vector?) calls
  object := lastOf (·.object?) calls
  keyword := (lastOf (·.keyword?) calls).map Prompt.soften
  question := (lastOf (·.question?) calls).map Prompt.soften

theorem prompt_of_eq_ok_iff {text : String} {attributes : List String} {prompt : Prompt} :
    Prompt.of text attributes = .ok prompt
      ↔ text.isEmpty = false ∧ prompt = Prompt.soften ⟨text, attributes⟩ := by
  rw [Prompt.of, softenQuotes_eq_map]
  cases text.isEmpty <;> simp [Prompt.soften, eq_comm]

/-- One more call that succeeds. -/
theorem Given.ofCalls {done : List (SearchCall Binary64)} {call : SearchCall Binary64}
    {next : Search} (h : (ofCalls done).Given call next) : next = ofCalls (done ++ [call]) := by
  -- what the call gives is the last of its kind, and it gives nothing of another kind
  cases h with
  | byKeyword h =>
    obtain ⟨-, rfl⟩ := prompt_of_eq_ok_iff.1 h
    simp [Search.ofCalls, lastOf_append]
  | byQuestion h =>
    obtain ⟨-, rfl⟩ := prompt_of_eq_ok_iff.1 h
    simp [Search.ofCalls, lastOf_append]
  | _ => simp [Search.ofCalls, lastOf_append]

/-- **The directives after any calls are those of the calls that have succeeded.** -/
theorem onAll_ofCalls (done calls : List (SearchCall Binary64)) :
    (Change.onAll perform (ofCalls done) calls).2
      = ofCalls (done ++ Change.succeeded (Change.onAll perform (ofCalls done) calls).1) := by
  induction calls generalizing done with
  | nil => rw [Change.onAll, Change.succeeded_nil, List.append_nil]
  | cons call calls ih =>
    rcases perform_cases call (ofCalls done) with ⟨fault, hfault⟩ | ⟨next, hnext, hgiven⟩
    · have hon : (perform call).on (ofCalls done) = (.error fault, ofCalls done) := by
        rw [Change.on, hfault]
      simp only [Change.onAll, hon, Change.succeeded_error]
      exact ih done
    · have hon : (perform call).on (ofCalls done) = (.ok (), ofCalls (done ++ [call])) := by
        rw [Change.on, hnext, hgiven.ofCalls]
      simp only [Change.onAll, hon, Change.succeeded_ok]
      rw [ih (done ++ [call]), List.append_assoc, List.singleton_append]

/-! ### Calls that succeed -/

theorem isOk_finiteDistance (distance : Binary64) :
    (finiteDistance distance).isOk = distance.isFinite := by
  rw [finiteDistance]
  cases distance.isFinite <;> rfl

theorem isOk_nearObjectId (id : String) (distance : Binary64) (search : Search) :
    ((nearObjectId id distance).on search).1.isOk
      = ((Uuid.ofHyphenated? id.toList).isSome && distance.isFinite) := by
  rw [nearObjectId]
  cases hid : Uuid.ofHyphenated? id.toList with
  | none => rfl
  | some bytes => exact (Change.isOk_check_modify _ _ _).trans (isOk_finiteDistance distance)

/-- A call succeeds iff it is sound. -/
theorem isOk_perform (call : SearchCall Binary64) (search : Search) :
    ((perform call).on search).1.isOk = call.isSound := by
  have hprompt : ∀ text attributes, (Prompt.of text attributes).isOk = !text.isEmpty := by
    intro text attributes
    rw [Prompt.of]
    cases text.isEmpty <;> rfl
  cases call with
  | nearText phrases distance =>
    rw [SearchCall.isSound, ← isOk_finiteDistance, perform, nearText]
    cases finiteDistance distance <;> rfl
  | nearVector vector distance =>
    rw [SearchCall.isSound, perform, nearVector]
    cases hbad : vector.find? (!·.isFinite) with
    | some bad =>
      have hall : vector.all (·.isFinite) = false := by
        rw [List.all_eq_false]
        exact ⟨bad, List.mem_of_find?_eq_some hbad, by simpa using List.find?_some hbad⟩
      rw [hall]
      rfl
    | none =>
      have hall : vector.all (·.isFinite) = true := by simpa using hbad
      rw [hall, Bool.true_and]
      exact (Change.isOk_check_modify _ _ _).trans (isOk_finiteDistance distance)
  | nearObjectId id distance => exact isOk_nearObjectId id distance search
  | nearObject id distance =>
    cases id with
    | none => rfl
    | some id => exact isOk_nearObjectId id distance search
  | byKeyword text attributes => exact (Change.isOk_check_modify _ _ _).trans (hprompt text attributes)
  | byQuestion text attributes => exact (Change.isOk_check_modify _ _ _).trans (hprompt text attributes)

theorem succeeded_onAll (search : Search) (calls : List (SearchCall Binary64)) :
    Change.succeeded (Change.onAll perform search calls).1 = calls.filter (·.isSound) := by
  induction calls generalizing search with
  | nil => rfl
  | cons call calls ih =>
    have hok := isOk_perform call search
    simp only [Change.onAll]
    generalize (perform call).on search = result at hok ⊢
    obtain ⟨answer, next⟩ := result
    cases answer with
    | ok _ => rw [Change.succeeded_ok, ih, List.filter_cons_of_pos hok.symm]
    | error _ =>
      rw [Change.succeeded_error, ih, List.filter_cons_of_neg (Bool.eq_false_iff.1 hok.symm)]

/-- The numbers that sound calls give are finite. -/
theorem isFinite_of_phraseDistance {call : SearchCall Binary64} (hsound : call.isSound = true)
    {distance : Binary64} (h : call.phraseDistance? = some distance) :
    distance.isFinite = true := by
  cases call <;> cases h
  exact hsound

theorem isFinite_of_vector {call : SearchCall Binary64} (hsound : call.isSound = true)
    {given : List Binary64 × Binary64} (h : call.vector? = some given) :
    (∀ x ∈ given.1, x.isFinite = true) ∧ given.2.isFinite = true := by
  cases call <;> cases h
  simpa [SearchCall.isSound] using hsound

theorem isFinite_of_object {call : SearchCall Binary64} (hsound : call.isSound = true)
    {given : String × Binary64} (h : call.object? = some given) :
    given.2.isFinite = true := by
  cases call with
  | nearObjectId id distance =>
    cases h
    exact (Bool.and_eq_true_iff.1 hsound).2
  | nearObject id distance =>
    cases id with
    | none => cases h
    | some id =>
      cases h
      exact (Bool.and_eq_true_iff.1 hsound).2
  | _ => cases h

end Search

end VectorQuery
