import Mathlib
import VectorQuery.Backend.Scripted
import VectorQuery.Proofs.Condition.Typed
import VectorQuery.Proofs.Session.Counting
import VectorQuery.Proofs.Session.Restriction

/-!
# What a session deletes by

The condition of a query is joined from those of the clauses that have restricted it, whatever else
has happened in between.  So every leaf object of the document that a delete sends comes from a value
that one of these clauses has bound, and is of its type.

* `Session.restrictions` — the clauses that have restricted the query;
* `Session.completed_built` — what completes has built something;
* `Session.condition_after` — the condition is that of these clauses;
* `Session.document_typed` — **the document of a clause, and of any query that can come about, is
  well typed**.
-/

namespace VectorQuery

open Outcome

/-- The clause of a call that restricts. -/
def Call.clause? : Call → Option Clause
  | .restrict clause => some clause
  | _ => none

namespace Query

/-- The calls on the condition are those that restrict. -/
theorem filter_condition (calls : List Call) :
    calls.filter (·.part = .condition) = (calls.filterMap Call.clause?).map .restrict := by
  induction calls with
  | nil => rfl
  | cons call calls ih =>
    cases call with
    | restrict clause =>
      rw [List.filter_cons_of_pos (by rfl), ih]
      rfl
    | search call =>
      rw [List.filter_cons_of_neg (by cases call <;> simp [Call.part, SearchCall.part]), ih]
      rfl
    | _ =>
      rw [List.filter_cons_of_neg (by simp [Call.part]), ih]
      rfl

/-- The condition of a query after any calls is that of the clauses that have one. -/
theorem onAll_condition (collection : Collection) (defaults : Defaults) (calls : List Call) :
    (Change.onAll perform (new collection defaults) calls).2.condition
      = Condition.all? ((calls.filterMap Call.clause?).filterMap (·.condition.toOption)) := by
  have honly := congrArg Prod.snd (onAll_only .condition (new collection defaults) calls)
  rw [filter_condition] at honly
  have hnone : (new collection defaults).condition = Condition.all? [] := rfl
  have hcondition := (onAll_restrict hnone (calls.filterMap Call.clause?)).2
  rw [List.nil_append] at hcondition
  exact (congrArg condition honly).symm.trans hcondition

end Query

namespace Session

variable {σ : Type} [Backend σ]

/-- The clauses that have restricted the query in the course of events. -/
def restrictions (session : Session σ) (events : List (Event σ)) : List Clause :=
  (session.completed events).filterMap Call.clause?

/-- A call that completes has built something. -/
theorem completed_built {session : Session σ} {events : List (Event σ)} {call : Call}
    (h : call ∈ session.completed events) : ∃ before after, Query.Built before call after := by
  induction events generalizing session with
  | nil => cases h
  | cons event events ih =>
    rw [completed, List.mem_append, Option.mem_toList] at h
    rcases h with hcall | hcall
    · rcases session.completes_cases event with ⟨hnone, -⟩ | ⟨found, hfound, hbuilt⟩
      · rw [hnone] at hcall
        cases hcall
      · obtain rfl : found = call := Option.some.inj (hfound.symm.trans hcall)
        exact ⟨_, _, hbuilt⟩
    · exact ih hcall

/-- A clause that has a condition restricts the query. -/
theorem run_restrict (session : Session σ) {clause : Clause} {c : Condition}
    (h : clause.condition = .ok c) :
    session.run (.build (.restrict clause))
      = (.ok .done, { session with query := session.query.addCondition c, loaded := none }) := by
  have hperform : Query.perform (.restrict clause) session.query
      = .ok () (session.query.addCondition c) :=
    Change.check_ok_bind h _ session.query
  simp only [run, Change.on, build_eq, hperform]
  rfl

/-- A clause that has restricted the query has a condition. -/
theorem exists_condition {session : Session σ} {events : List (Event σ)} {clause : Clause}
    (h : clause ∈ session.restrictions events) : ∃ c, clause.condition = .ok c := by
  obtain ⟨call, hcall, hclause⟩ := List.mem_filterMap.1 h
  obtain ⟨before, after, hbuilt⟩ := completed_built hcall
  cases hbuilt with
  | restrict hcondition =>
    cases hclause
    exact ⟨_, hcondition⟩
  | _ => cases hclause

/-- The condition is that of the clauses that have restricted the query. -/
theorem condition_after (collection : Collection) (defaults : Defaults) (backend : σ)
    (events : List (Event σ)) :
    let session := start collection defaults backend
    (session.after events).query.condition
      = Condition.all? ((session.restrictions events).filterMap (·.condition.toOption)) := by
  intro session
  rw [query_after_completed]
  exact Query.onAll_condition collection defaults _

/-- Clauses that have conditions have a leaf for each of their bindings. -/
theorem forall₂_leavesOf {clauses : List Clause}
    (h : ∀ clause ∈ clauses, ∃ c, clause.condition = .ok c) :
    List.Forall₂ Clause.Binds (clauses.flatMap Clause.bindings)
      (Condition.leavesOf (Condition.all? (clauses.filterMap (·.condition.toOption)))) := by
  rw [Condition.leavesOf_all?_filterMap]
  induction clauses with
  | nil => exact .nil
  | cons clause clauses ih =>
    rw [List.forall_mem_cons] at h
    obtain ⟨⟨c, hc⟩, hclauses⟩ := h
    have hleaves := Clause.forall₂_bindings hc
    rw [List.flatMap_cons, List.flatMap_cons, hc]
    show List.Forall₂ _ _ (Condition.leavesOf (some c) ++ _)
    rw [Condition.leavesOf_some]
    exact List.rel_append hleaves (ih hclauses)

/-- **The documents of conditions are well typed.**  The document of a clause joins one leaf object
for each value that the clause binds to an attribute, and the object is typed by this value.  So
does the document of the condition of any query that can come about, for the clauses that have
restricted it. -/
theorem document_typed :
    (∀ (clause : Clause) (c : Condition), clause.condition = .ok c → c.Typed clause.bindings)
    ∧ ∀ (collection : Collection) (defaults : Defaults) (backend : σ) (events : List (Event σ)),
      let session := start collection defaults backend
      ∀ c ∈ (session.after events).query.condition,
        c.Typed ((session.restrictions events).flatMap Clause.bindings) := by
  constructor
  · intro clause c hc
    exact Condition.typed_of_leaves (Clause.forall₂_bindings hc)
  · intro collection defaults backend events session c hc
    have hleaves := forall₂_leavesOf fun clause (hclause : clause ∈ session.restrictions events) =>
      exists_condition hclause
    rw [← condition_after, hc, Condition.leavesOf_some] at hleaves
    exact Condition.typed_of_leaves hleaves

/-- A point in time, a null and a list. -/
def timeNullAndList : List (String × Operand) :=
  [("created_at", .integer 5), ("title", .null), ("tags", .list [.text "scifi"])]

/-- After one call for all three, a delete sends a document with a leaf object for each of them. -/
theorem document_typed_timeNullAndList :
    let session := start ⟨"Article", ["title"]⟩ ⟨.nan, 25⟩ ({} : ScriptedBackend)
    let events := [.own (.build (.restrict (.ofPairs timeNullAndList)))]
    ∃ c, (session.after events).query.condition = some c ∧ c.Typed timeNullAndList := by
  intro session events
  have hoption : (Clause.ofPairs timeNullAndList).condition.toOption
      = Condition.all? (Clause.namedLeaves timeNullAndList) :=
    Clause.toOption_ofPairs (by decide) (by decide)
  obtain ⟨c, hc⟩ : ∃ c, (Clause.ofPairs timeNullAndList).condition = .ok c := by
    cases hcondition : (Clause.ofPairs timeNullAndList).condition with
    | error fault =>
      rw [hcondition] at hoption
      cases hoption
    | ok c => exact ⟨c, rfl⟩
  have hrun := session.run_restrict hc
  have hcondition : (session.after events).query.condition = some c := by
    show (session.run _).2.query.condition = _
    rw [hrun]
    rfl
  have hrestrictions : session.restrictions events = [.ofPairs timeNullAndList] := by
    rw [restrictions, completed, completes, hrun]
    rfl
  have htyped := document_typed.2 ⟨"Article", ["title"]⟩ ⟨.nan, 25⟩ ({} : ScriptedBackend) events c
    hcondition
  rw [hrestrictions] at htyped
  exact ⟨c, hcondition, htyped⟩

end Session

end VectorQuery
