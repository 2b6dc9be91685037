import Mathlib
import VectorQuery.Proofs.Selection.Merging
import VectorQuery.Proofs.Session.Counting

/-!
# Selections add up

What is selected is what the calls of `select` that have succeeded have given, merged in one: so calls
may be repeated or cut in two, and a call that is refused would be refused at any time.

* `Call.selectedNames`, `Call.selectedFields` — what a call gives;
* `Session.run_select` — what comes of one call;
* `Session.run_select_again`, `Session.run_select_parted` — a call made twice, and cut in two;
* `Session.selection_after` — the selection after any events;
* `Session.selection_merges` — **what is selected, which calls are refused, and which calls may be
  left out or cut in two**.
-/

namespace VectorQuery

open Selection Json.Fields

/-! ### Calls -/

/-- The names that a call gives, if it succeeds. -/
def Call.selectedNames : Call → List String
  | .select names _ => names
  | _ => []

/-- The nested fields that a call gives, if it succeeds. -/
def Call.selectedFields : Call → Json.Fields
  | .select _ nested => nestedFields nested
  | _ => []

/-- A call that succeeds merges what it gives. -/
theorem Query.Built.selection {before after : Query} {call : Call} (h : before.Built call after) :
    after.selection = before.selection.merge call.selectedNames call.selectedFields := by
  cases h with
  | select h => exact (select_eq_ok_iff.1 h).2.2
  | _ => rfl

namespace Session

variable {σ : Type} [Backend σ]

/-! ### One call -/

/-- The session with another selection and no loaded objects. -/
def withSelection (session : Session σ) (selection : Selection) : Session σ :=
  { session with query := { session.query with selection }, loaded := none }

/-- A call of `select` keeps the new selection, or it is refused and leaves the session as it is. -/
theorem run_select (session : Session σ) (names : List String) (nested : Option Json) :
    session.run (.build (.select names nested))
      = match session.query.selection.select names nested with
        | .ok selection => (.ok .done, session.withSelection selection)
        | .error fault => (.error fault, session) := by
  simp only [run, Change.on, build_eq]
  cases hselect : session.query.selection.select names nested with
  | ok selection =>
    have hperform : Query.perform (.select names nested) session.query
        = .ok () { session.query with selection } := Change.check_ok_bind hselect _ session.query
    rw [hperform]
    rfl
  | error fault =>
    have hperform : Query.perform (.select names nested) session.query = .error fault session.query :=
      Change.check_error_bind hselect _ session.query
    rw [hperform]
    rfl

theorem run_select_eq_ok_iff {session next : Session σ} {names : List String} {nested : Option Json} :
    session.run (.build (.select names nested)) = (.ok .done, next)
      ↔ ∃ selection, session.query.selection.select names nested = .ok selection
        ∧ next = session.withSelection selection := by
  rw [run_select]
  cases session.query.selection.select names nested with
  | ok selection => simp [eq_comm]
  | error fault => simp

/-- A call is refused for its nested selection alone. -/
theorem run_select_eq_error_iff {session : Session σ} {names : List String} {nested : Option Json}
    (hstored : ∀ field ∈ session.query.selection.nested, Selectable field.2)
    (hkeys : (keys (nestedFields nested)).Nodup) :
    (∃ fault, session.run (.build (.select names nested)) = (.error fault, session))
      ↔ Refused nested := by
  rw [← not_iff_not, ← exists_select_iff names hstored hkeys, run_select]
  cases session.query.selection.select names nested <;> simp

/-- A call that has succeeded does nothing when it is repeated. -/
theorem run_select_again {session next : Session σ} {names : List String} {nested : Option Json}
    (hkeys : (keys session.query.selection.nested).Nodup)
    (h : session.run (.build (.select names nested)) = (.ok .done, next)) :
    next.run (.build (.select names nested)) = (.ok .done, next) := by
  obtain ⟨merged, hmerged, rfl⟩ := run_select_eq_ok_iff.1 h
  obtain ⟨hobject, hleaves, rfl⟩ := select_eq_ok_iff.1 hmerged
  refine run_select_eq_ok_iff.2 ⟨_, select_eq_ok_iff.2 ⟨hobject, hleaves, ?_⟩, rfl⟩
  exact (merge_self hkeys names (nestedFields nested)).symm

/-- A call that is not refused does what one for some of its names does and then one for the rest. -/
theorem run_select_parted {session : Session σ} {names more : List String} {nested : Option Json}
    (hstored : ∀ field ∈ session.query.selection.nested, Selectable field.2)
    (hkeys : (keys (nestedFields nested)).Nodup) (haccepted : ¬ Refused nested) :
    ∃ between next,
      session.run (.build (.select (names ++ more) nested)) = (.ok .done, next)
      ∧ session.run (.build (.select names none)) = (.ok .done, between)
      ∧ between.run (.build (.select more nested)) = (.ok .done, next) := by
  obtain ⟨merged, hmerged⟩ := (exists_select_iff (names ++ more) hstored hkeys).2 haccepted
  obtain ⟨hobject, hleaves, rfl⟩ := select_eq_ok_iff.1 hmerged
  have hfirst : session.query.selection.select names none
      = .ok (session.query.selection.merge names []) :=
    select_eq_ok_iff.2 ⟨by simp, hstored, rfl⟩
  have hsecond : (session.query.selection.merge names []).select more nested
      = .ok (session.query.selection.merge (names ++ more) (nestedFields nested)) :=
    select_eq_ok_iff.2 ⟨hobject, hleaves, (merge_merge _ names more [] _).symm⟩
  exact ⟨_, _, run_select_eq_ok_iff.2 ⟨_, hmerged, rfl⟩, run_select_eq_ok_iff.2 ⟨_, hfirst, rfl⟩,
    run_select_eq_ok_iff.2 ⟨_, hsecond, rfl⟩⟩

/-! ### Calls that have succeeded -/

/-- **What is selected is what the calls have given that have succeeded, in one.** -/
theorem selection_after (session : Session σ) (events : List (Event σ)) :
    (session.after events).query.selection
      = session.query.selection.merge
        ((session.completed events).flatMap Call.selectedNames)
        ((session.completed events).flatMap Call.selectedFields) := by
  rw [session.view_after (fun query => query.selection)
    (fun selection call => selection.merge call.selectedNames call.selectedFields)
    Query.Built.selection events]
  generalize session.query.selection = selection
  induction session.completed events generalizing selection with
  | nil => rfl
  | cons call calls ih => rw [List.foldl_cons, ih, merge_merge, List.flatMap_cons, List.flatMap_cons]

/-- **Selections are merged without loss.**  In every session that can come about, the flat names are
those of the calls that have succeeded, and the nested keys are theirs, each kept where it came first;
a nested key stands for the value that was given for it last.  A call whose nested object has each key
once is refused, and leaves the session as it is, iff the nested selection is no object or holds a
scalar.  A call that has succeeded does nothing when it is repeated, and one that is not refused does
what one for some of its names does and then one for the rest. -/
theorem selection_merges (collection : Collection) (defaults : Defaults) (backend : σ)
    (events : List (Event σ)) :
    let session := (start collection defaults backend).after events
    let done := (start collection defaults backend).completed events
    let selection := session.query.selection
    selection.names = (done.flatMap Call.selectedNames).eraseDups
    ∧ keys selection.nested = (keys (done.flatMap Call.selectedFields)).eraseDups
    ∧ (∀ key, get? key selection.nested = get? key (done.flatMap Call.selectedFields).reverse)
    ∧ (∀ names nested, (keys (nestedFields nested)).Nodup →
        ((∃ fault, session.run (.build (.select names nested)) = (.error fault, session))
          ↔ Refused nested))
    ∧ (∀ names nested next, session.run (.build (.select names nested)) = (.ok .done, next) →
        next.run (.build (.select names nested)) = (.ok .done, next))
    ∧ ∀ names more nested, (keys (nestedFields nested)).Nodup → ¬ Refused nested →
        ∃ between next,
          session.run (.build (.select (names ++ more) nested)) = (.ok .done, next)
          ∧ session.run (.build (.select names none)) = (.ok .done, between)
          ∧ between.run (.build (.select more nested)) = (.ok .done, next) := by
  intro session done selection
  have hselection : selection
      = merge {} (done.flatMap Call.selectedNames) (done.flatMap Call.selectedFields) :=
    selection_after (start collection defaults backend) events
  have hstored : ∀ field ∈ selection.nested, Selectable field.2 :=
    exists_fields_iff.1 (rendered_start collection defaults backend events)
  have hfresh : (keys ([] : Json.Fields)).Nodup := List.nodup_nil
  have hkeys : (keys selection.nested).Nodup := by
    rw [hselection]
    exact nodup_insertAll hfresh _
  refine ⟨?_, ?_, fun key => ?_, fun names nested => run_select_eq_error_iff hstored,
    fun names nested next => run_select_again hkeys,
    fun names more nested => run_select_parted hstored⟩
  · rw [hselection]
    exact foldl_addName [] _
  · rw [hselection, merge, keys_insertAll]
    exact foldl_addName [] _
  · rw [hselection, merge, get?_insertAll]
    exact Option.or_none

end Session

end VectorQuery
