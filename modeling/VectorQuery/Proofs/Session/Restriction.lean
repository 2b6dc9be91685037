import Mathlib
import VectorQuery.Backend.Scripted
import VectorQuery.Proofs.Change
import VectorQuery.Proofs.Condition.Leaves
import VectorQuery.Proofs.Session.Interleaving

/-!
# Conditions add up

Each call that restricts a query joins one more condition to the right of those it has, and a clause
joins its own leaves in the same way.  So it does not matter for the leaves how named pairs are
spread over calls, and for the tree it does not matter whether each has a call of its own or all have
one.

* `Query.onAll_restrict` — the condition after calls is that of the clauses that have one;
* `Clause.filterMap_singles`, `Clause.exists_parted` — named pairs with a clause each, and in several
  clauses;
* `Session.restrict_accumulates` — **the condition after calls that restrict a new query**.
-/

namespace VectorQuery

/-! ### Calls that restrict -/

namespace Query

/-- The condition after calls that restrict is that of all clauses that have one. -/
theorem onAll_restrict {query : Query} {done : List Condition}
    (h : query.condition = Condition.all? done) (clauses : List Clause) :
    (Change.onAll perform query (clauses.map .restrict)).1
        = clauses.map (fun clause => (.restrict clause, clause.condition.map fun _ => ()))
    ∧ (Change.onAll perform query (clauses.map .restrict)).2.condition
        = Condition.all? (done ++ clauses.filterMap (·.condition.toOption)) := by
  -- the condition so far is that of the clauses done, in all calls that follow
  induction clauses generalizing query done with
  | nil => exact ⟨rfl, by rw [List.filterMap_nil, List.append_nil]; exact h⟩
  | cons clause clauses ih =>
    cases hclause : clause.condition with
    | error fault =>
      have hon : (perform (.restrict clause)).on query = (.error fault, query) := by
        simp only [perform, Change.on, hclause]
        rfl
      obtain ⟨hanswers, hcondition⟩ := ih h
      simp only [List.map_cons, Change.onAll, hon, hclause, hanswers, hcondition,
        List.filterMap_cons]
      exact ⟨rfl, rfl⟩
    | ok c =>
      have hon : (perform (.restrict clause)).on query = (.ok (), query.addCondition c) := by
        simp only [perform, Change.on, hclause]
        rfl
      have hnext : (query.addCondition c).condition = Condition.all? (done ++ [c]) := by
        rw [← Condition.both?_all?, ← h]
        rfl
      obtain ⟨hanswers, hcondition⟩ := ih hnext
      simp only [List.map_cons, Change.onAll, hon, hclause, hanswers, hcondition,
        List.filterMap_cons, Except.toOption]
      exact ⟨rfl, by rw [List.append_assoc, List.singleton_append]⟩

end Query

/-! ### Named pairs in several clauses -/

namespace Clause

/-- Named pairs with a clause each have their leaves, which need no join. -/
theorem filterMap_singles {pairs : List (String × Operand)}
    (hok : ∀ pair ∈ pairs, (namedLeaf pair).isOk = true) :
    (pairs.map fun pair => ofPairs [pair]).filterMap (·.condition.toOption) = namedLeaves pairs := by
  rw [List.filterMap_map]
  exact List.filterMap_congr fun pair hpair => toOption_ofPairs_singleton (hok pair hpair)

/-- Named pairs in several clauses have their leaves in their order, joined by conjunctions. -/
theorem exists_parted {chunks : List (List (String × Operand))}
    (hchunks : ∀ chunk ∈ chunks, chunk ≠ []) (hpairs : chunks.flatten ≠ [])
    (hok : ∀ pair ∈ chunks.flatten, (namedLeaf pair).isOk = true) :
    ∃ parted, Condition.all? ((chunks.map ofPairs).filterMap (·.condition.toOption)) = some parted
      ∧ parted.Conjunctive ∧ parted.leafList = namedLeaves chunks.flatten := by
  have hchunk : ∀ chunk ∈ chunks,
      Condition.leavesOf (ofPairs chunk).condition.toOption = namedLeaves chunk
      ∧ ∀ c ∈ (ofPairs chunk).condition.toOption, c.Conjunctive := by
    intro chunk h
    exact leavesOf_ofPairs (fun pair hpair => hok pair (List.mem_flatten_of_mem h hpair))
      (hchunks chunk h)
  rw [List.filterMap_map]
  have hleaves : Condition.leavesOf (Condition.all?
      (chunks.filterMap ((·.condition.toOption) ∘ ofPairs))) = namedLeaves chunks.flatten := by
    rw [Condition.leavesOf_all?_filterMap, namedLeaves, List.filterMap_flatten, ← List.flatMap_def]
    exact List.flatMap_congr fun chunk h => (hchunk chunk h).1
  have hconjunctive : ∀ c ∈ chunks.filterMap ((·.condition.toOption) ∘ ofPairs), c.Conjunctive := by
    intro c hc
    obtain ⟨chunk, h, hgiven⟩ := List.mem_filterMap.1 hc
    exact (hchunk chunk h).2 c hgiven
  cases hroot : Condition.all? (chunks.filterMap ((·.condition.toOption) ∘ ofPairs)) with
  | none =>
    -- without a condition there would be no leaf
    rw [hroot] at hleaves
    exact absurd hleaves.symm (namedLeaves_ne_nil hok hpairs)
  | some parted =>
    rw [hroot, Condition.leavesOf_some] at hleaves
    exact ⟨parted, rfl, Condition.conjunctive_all? hconjunctive parted hroot, hleaves⟩

end Clause

/-! ### Sessions -/

namespace Session

variable {σ : Type}

/-- A new query has no condition, so after calls that restrict it, it has that of all clauses that
have one. -/
theorem onAll_restrict (collection : Collection) (defaults : Defaults) (backend : σ)
    (clauses : List Clause) :
    let run := Change.onAll build (start collection defaults backend) (clauses.map .restrict)
    run.1 = clauses.map (fun clause => (.restrict clause, clause.condition.map fun _ => ()))
    ∧ run.2.query.condition = Condition.all? (clauses.filterMap (·.condition.toOption)) := by
  intro run
  obtain ⟨hanswers, hquery⟩ := onAll_build (start collection defaults backend) (clauses.map .restrict)
  have hnone : (start collection defaults backend).query.condition = Condition.all? [] := rfl
  obtain ⟨hclauses, hcondition⟩ := Query.onAll_restrict hnone clauses
  exact ⟨hanswers.trans hclauses, by rw [hquery, hcondition, List.nil_append]⟩

/-- **Conditions add up.**  After any calls that restrict a new query, its condition is the
conjunction, nested to the left, of the conditions of the clauses that have one; there is none iff
every call has failed, and there is a leaf for each value and each named pair of a call that has
succeeded.  If each of several named pairs may have a call of its own, then one call for each gives
the same tree as one call for all, and however they are cut into stretches, one call for each stretch
gives the same leaves in the same order, joined by conjunctions. -/
theorem restrict_accumulates (collection : Collection) (defaults : Defaults) (backend : σ) :
    let run := fun clauses : List Clause =>
      Change.onAll build (start collection defaults backend) (clauses.map .restrict)
    let root := fun clauses => (run clauses).2.query.condition
    (∀ clauses,
      (run clauses).1 = clauses.map (fun clause => (.restrict clause, clause.condition.map fun _ => ()))
      ∧ (∀ tree, root clauses = some tree
        ↔ Condition.Conjoined (clauses.filterMap (·.condition.toOption)) tree)
      ∧ (root clauses = none ↔ ∀ clause ∈ clauses, clause.condition.isOk = false)
      ∧ (root clauses).elim 0 Condition.leaves
          = ((clauses.filter (·.condition.isOk)).map Clause.size).sum)
    ∧ ∀ pairs, pairs ≠ [] → (∀ pair ∈ pairs, (Clause.ofPairs [pair]).condition.isOk = true) →
      ∃ whole, root [.ofPairs pairs] = some whole
        ∧ root (pairs.map fun pair => .ofPairs [pair]) = some whole
        ∧ whole.leafList = Clause.namedLeaves pairs
        ∧ ∀ chunks : List (List (String × Operand)), chunks.flatten = pairs →
          (∀ chunk ∈ chunks, chunk ≠ []) →
          ∃ parted, root (chunks.map .ofPairs) = some parted
            ∧ parted.Conjunctive ∧ parted.leafList = whole.leafList := by
  intro run root
  have hroot : ∀ clauses, root clauses = Condition.all? (clauses.filterMap (·.condition.toOption)) :=
    fun clauses => (onAll_restrict collection defaults backend clauses).2
  constructor
  · intro clauses
    refine ⟨(onAll_restrict collection defaults backend clauses).1, fun tree => ?_, ?_, ?_⟩
    · rw [hroot, Condition.all?_eq_some_iff]
    · rw [hroot, Condition.all?_eq_none_iff, List.filterMap_eq_nil_iff]
      refine forall₂_congr fun clause _ => ?_
      rw [← Outcome.isSome_toOption, Option.isSome_eq_false_iff, Option.isNone_iff_eq_none]
    · rw [hroot, ← Condition.length_leavesOf, Clause.length_leavesOf_clauses]
  · intro pairs hpairs hsound
    have hok : ∀ pair ∈ pairs, (Clause.namedLeaf pair).isOk = true :=
      fun pair hpair => Clause.isOk_ofPairs_singleton.1 (hsound pair hpair)
    have hone : root [.ofPairs pairs] = Condition.all? (Clause.namedLeaves pairs) := by
      rw [hroot, Condition.all?_filterMap_singleton, Clause.toOption_ofPairs hok hpairs]
    have hsingles : root (pairs.map fun pair => .ofPairs [pair])
        = Condition.all? (Clause.namedLeaves pairs) := by
      rw [hroot, Clause.filterMap_singles hok]
    have hparted : ∀ chunks : List (List (String × Operand)), chunks.flatten = pairs →
        (∀ chunk ∈ chunks, chunk ≠ []) →
        ∃ parted, root (chunks.map .ofPairs) = some parted
          ∧ parted.Conjunctive ∧ parted.leafList = Clause.namedLeaves pairs := by
      rintro chunks rfl hchunks
      rw [hroot]
      exact Clause.exists_parted hchunks hpairs hok
    -- one call for all pairs is the cut into a single stretch
    obtain ⟨whole, hwhole, -, hleaves⟩ := hparted [pairs] List.flatten_singleton
      (List.forall_mem_singleton.2 hpairs)
    refine ⟨whole, hwhole, ?_, hleaves, ?_⟩
    · rw [hsingles, ← hone]
      exact hwhole
    · rw [hleaves]
      exact hparted

/-- A text, a list and a null. -/
def namedPairs : List (String × Operand) :=
  [("title", .text "Dune"), ("tags", .list [.text "scifi"]), ("year", .null)]

/-- Two calls for three pairs give the leaves of all three. -/
theorem restrict_accumulates_namedPairs :
    let session := start ⟨"Article", ["title"]⟩ ⟨.nan, 25⟩ ({} : ScriptedBackend)
    let calls : List Call :=
      [.restrict (.ofPairs (namedPairs.take 2)), .restrict (.ofPairs (namedPairs.drop 2))]
    ∃ parted, (Change.onAll build session calls).2.query.condition = some parted
      ∧ parted.leafList = Clause.namedLeaves namedPairs := by
  intro session calls
  obtain ⟨-, hpairs⟩ := restrict_accumulates ⟨"Article", ["title"]⟩ ⟨.nan, 25⟩ ({} : ScriptedBackend)
  have hleaf : ∀ pair ∈ namedPairs, (Clause.namedLeaf pair).isOk = true := by decide
  have hsound : ∀ pair ∈ namedPairs, (Clause.ofPairs [pair]).condition.isOk = true :=
    fun pair hpair => Clause.isOk_ofPairs_singleton.2 (hleaf pair hpair)
  obtain ⟨whole, -, -, hleaves, hparted⟩ := hpairs namedPairs (List.cons_ne_nil _ _) hsound
  obtain ⟨parted, hroot, -, hlist⟩ := hparted [namedPairs.take 2, namedPairs.drop 2] rfl
    (by simp [namedPairs])
  exact ⟨parted, hroot, hlist.trans hleaves⟩

end Session

end VectorQuery
