import Mathlib
import VectorQuery.Proofs.Condition.Grammar

/-!
# Clauses that bind one value

A value is bound to an attribute in a text, with any operator that has a symbol, or as a named pair.
Either clause spells the leaf of the attribute and the value, and nothing else.

* `Clause.Single` — a clause that binds one value;
* `Clause.Single.spells` — it spells a leaf;
* `Clause.Single.condition_timestamp` — **a point in time is compared with by its milliseconds**.
-/

namespace VectorQuery

open Text

namespace Clause

/-- A symbol of an operator is no connective and no placeholder. -/
theorem free_of_hasSymbol {symbol : String} {operator : Operator} (h : operator.HasSymbol symbol) :
    Free symbol ∧ symbol ≠ "?" := by
  cases h <;> decide

/-- Nor is an attribute that is a point in time. -/
theorem free_of_timestampPath? {name path : String} (h : timestampPath? name = some path) :
    Free name ∧ name ≠ "?" := by
  rw [timestampPath?.eq_def] at h
  split at h
  · decide
  · decide
  · cases h

/-- A clause that binds one value to an attribute: its text has the words `attribute symbol ?`, or it
is a named pair without a text, whose symbol is that for any item of a list, or else equality. -/
inductive Single (name symbol : String) (value : Operand) : Clause → Prop
  | textual {text : String} (hwords : Parted text.toList ([name, symbol, "?"].map String.toList)) :
      Single name symbol value { text, values := [value] }
  | anyOf {text : String} {items : List Operand} (htext : Gap text.toList) (hvalue : value = .list items)
      (hsymbol : symbol = "CONTAINS_ANY") : Single name symbol value { text, named := [(name, value)] }
  | equal {text : String} (htext : Gap text.toList) (hvalue : ∀ items, value ≠ .list items)
      (hsymbol : symbol = "=") : Single name symbol value { text, named := [(name, value)] }

namespace Single

variable {name symbol : String} {value : Operand} {clause : Clause}

/-- Such a clause spells the leaf of its attribute and value. -/
theorem spells (h : Single name symbol value clause) (hname : Free name ∧ name ≠ "?")
    (hsymbol : Free symbol ∧ symbol ≠ "?") {leaf : Condition} (hleaf : Leaf name symbol value leaf) :
    clause.Spells leaf := by
  cases h with
  | textual hwords =>
    have hchain : Chain (· ≠ "?") [name, symbol, "?"] [value] leaf :=
      .last hname.2 hsymbol.2 hsymbol.1 hleaf
    have hstart : ∀ first ∈ [name, symbol, "?"].head?, Free first := by
      rintro first ⟨⟩
      exact hname.1
    exact ⟨Or.inl (List.cons_ne_nil _ _), [], some leaf, .nil, .chain hwords hchain fun _ _ _ => hstart,
      .textual leaf⟩
  | anyOf htext hvalue hany =>
    subst hvalue hany
    exact ⟨Or.inr (List.cons_ne_nil _ _), [leaf], none, .cons (.anyOf hleaf) .nil,
      .blank htext rfl, .named (.single leaf)⟩
  | equal htext hvalue hequal =>
    subst hequal
    exact ⟨Or.inr (List.cons_ne_nil _ _), [leaf], none, .cons (.equal hvalue hleaf) .nil,
      .blank htext rfl, .named (.single leaf)⟩

/-- **A point in time is compared with by its milliseconds.** -/
theorem condition_timestamp {path : String} (hpath : timestampPath? name = some path)
    {operator : Operator} (hsymbol : operator.HasSymbol symbol) {millis : ℤ}
    (hmillis : value.HasMillis millis) (h : Single name symbol value clause) :
    clause.condition = .ok (.comparison path operator (.text (toString millis))) :=
  (condition_eq_ok_iff _ _).2 (h.spells (free_of_timestampPath? hpath) (free_of_hasSymbol hsymbol)
    (.timestamp hpath hsymbol hmillis))

end Single

end Clause

end VectorQuery
