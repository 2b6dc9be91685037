import VectorQuery.Condition.Basic
import VectorQuery.Text.Blank

/-!
# Clauses

A clause is what one call adds to a condition: a text with placeholders, the values for these, and pairs of
an attribute and a value. The text is a chain of leaves `attribute symbol ?` parted by connectives; there
is no grouping, and the chain joins from the right.

* `Clause` — text, values and named pairs.
* `Clause.splitConnective?` — a text cut at its first connective.
* `Clause.textual` — the condition of a text, and the values it leaves.
* `Clause.condition` — the condition of a clause.
-/

namespace VectorQuery

/-- The parts of one call that adds a condition. -/
structure Clause where
  text : String := ""
  values : List Operand := []
  named : List (String × Operand) := []

namespace Clause

/-! ### Faults -/

/-- Nothing is bound. -/
def nothingBound : Fault := .malformedClause "invalid argument for where query"

/-- The number of values is not that of the placeholders. -/
def wrongCount : Fault := .malformedClause "invalid number of arguments"

/-- What should be a leaf is not `attribute symbol ?`. -/
def notALeaf : Fault := .malformedClause "unable to process the query"

/-- A placeholder has no value left. -/
def noValueLeft : Fault := .malformedClause "insufficient values for formatting"

/-! ### Words and connectives -/

/-- The words of a text. -/
def words (cs : List Char) : List String := (Text.words cs).map String.ofList

/-- The word that stands for a value. -/
def placeholder : String := "?"

/-- The connective that a text starts with, and the text after it. A connective is a word with blanks on both
sides, and these belong to it. -/
def leadingConnective? (cs : List Char) : Option (Connective × List Char) :=
  let inner := cs.dropWhile Text.isBlank
  let after := inner.dropWhile (!Text.isBlank ·)
  if cs.head?.any Text.isBlank && after.head?.any Text.isBlank then
    (Connective.ofWord? (String.ofList (inner.takeWhile (!Text.isBlank ·)))).map fun connective =>
      (connective, after.dropWhile Text.isBlank)
  else none

theorem leadingConnective?_length {cs right : List Char} {connective : Connective}
    (h : leadingConnective? cs = some (connective, right)) : right.length < cs.length := by
  simp only [leadingConnective?] at h
  split at h
  · rename_i hblank
    obtain ⟨_, -, hright⟩ := Option.map_eq_some_iff.1 h
    cases hright
    cases cs with
    | nil => simp at hblank
    | cons c cs =>
      have hc : Text.isBlank c = true := by simpa using (Bool.and_eq_true_iff.1 hblank).1
      rw [List.dropWhile_cons_of_pos hc]
      have hinner := (List.dropWhile_sublist Text.isBlank (l := cs)).length_le
      have hafter := (List.dropWhile_sublist (!Text.isBlank ·) (l := cs.dropWhile Text.isBlank)).length_le
      have hrest := (List.dropWhile_sublist Text.isBlank
        (l := (cs.dropWhile Text.isBlank).dropWhile (!Text.isBlank ·))).length_le
      simp only [List.length_cons]
      omega
  · cases h

/-- A text cut at its first connective: what stands before it, and what stands after it. -/
def splitConnective? : List Char → Option (List Char × Connective × List Char)
  | [] => none
  | c :: cs =>
    match leadingConnective? (c :: cs) with
    | some (connective, right) => some ([], connective, right)
    | none => (splitConnective? cs).map fun (left, connective, right) => (c :: left, connective, right)

theorem splitConnective?_length {cs left right : List Char} {connective : Connective}
    (h : splitConnective? cs = some (left, connective, right)) : right.length < cs.length := by
  induction cs generalizing left with
  | nil => cases h
  | cons c cs ih =>
    rw [splitConnective?] at h
    split at h
    · rename_i hleading
      cases h
      exact leadingConnective?_length hleading
    · obtain ⟨⟨left', connective', right'⟩, hrest, hsame⟩ := Option.map_eq_some_iff.1 h
      cases hsame
      exact Nat.lt_succ_of_lt (ih hrest)

/-! ### Conditions -/

/-- The leaf of the words of a text without connectives, and the values after the one it takes. -/
def textLeaf (words : List String) (values : List Operand) : Except Fault (Condition × List Operand) :=
  match words with
  | [name, symbol, mark] =>
    if mark = placeholder then
      match values with
      | value :: rest => (Condition.leaf name symbol value).map fun leaf => (leaf, rest)
      | [] => .error noValueLeft
    else .error notALeaf
  | _ => .error notALeaf

/-- The condition of a text, none if it is blank, and the values it leaves. What stands before the first connective
is a leaf, and what stands after it is a text again. -/
def textual (cs : List Char) (values : List Operand) : Except Fault (Option Condition × List Operand) :=
  if (Text.trim cs).isEmpty then .ok (none, values)
  else
    match _h : splitConnective? cs with
    | none => do
      let (leaf, values) ← textLeaf (words cs) values
      return (some leaf, values)
    | some (left, connective, right) => do
      let (left, values) ← textLeaf (words left) values
      match ← textual right values with
      | (some right, values) => return (some (.join connective left right), values)
      | (none, _) => throw notALeaf
termination_by cs.length
decreasing_by exact splitConnective?_length (by assumption)

/-- The symbol of a named pair: equality, or for a list, having one of its items. -/
def namedSymbol (value : Operand) : String := if value.isList then "CONTAINS_ANY" else "="

/-- The leaf of a named pair. -/
def namedLeaf (pair : String × Operand) : Except Fault Condition :=
  Condition.leaf pair.1 (namedSymbol pair.2) pair.2

/-- The condition that all named pairs hold, none if there is no pair. -/
def named? (pairs : List (String × Operand)) : Except Fault (Option Condition) :=
  (pairs.mapM namedLeaf).map Condition.all?

/-- The condition of a clause. The number of placeholders is checked first; then the named pairs are read, then
the text. -/
def condition (clause : Clause) : Except Fault Condition := do
  if clause.values.isEmpty && clause.named.isEmpty then throw nothingBound
  let text := clause.text.toList
  if (words text).count placeholder ≠ clause.values.length then throw wrongCount
  let named ← named? clause.named
  let (textual, rest) ← textual text clause.values
  if !rest.isEmpty then throw wrongCount
  match Condition.both? named textual with
  | some condition => return condition
  | none => throw nothingBound

end Clause

end VectorQuery
