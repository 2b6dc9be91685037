import Mathlib
import VectorQuery.Proofs.Condition.SpelledPairs

/-!
# Values do not run out

The leaves of a text take the bound values one after another.  Before the search, only the
placeholders of the whole text are counted.  A cut parts the words of a text, so the text that is
still unread never has more placeholders than there are values left, and every leaf finds its value.

* `Clause.Visits` — the leaves that the search comes to, each with the values that are left;
* `Clause.text_induction` — induction along the search;
* `Clause.words_splitConnective?` — a cut parts the words of a text;
* `Clause.Visits.count_le` — the values that are left are enough for the placeholders of a leaf;
* `Clause.visits_of_error` — a text fails at a leaf that is visited;
* `Clause.values_left_iff` — what a text that is read leaves over;
* `Clause.values_suffice` — **no clause runs out of values**.
-/

namespace VectorQuery

open Text Outcome

/-! ### Faults of leaves -/

theorem Comparand.ofOperand_ne_malformed (value : Operand) (detail : String) :
    Comparand.ofOperand value ≠ .error (.malformedClause detail) := by
  intro h
  cases value with
  | float x =>
    rw [Comparand.ofOperand] at h
    split at h <;> cases h
  | list items =>
    rw [Comparand.ofOperand] at h
    cases hitems : items.mapM Comparand.itemText with
    | ok texts =>
      rw [hitems] at h
      cases h
    | error fault =>
      obtain ⟨_, item, _, -, -, hitem⟩ := mapM_eq_error_iff.1 hitems
      rw [hitems] at h
      cases h
      cases item <;> cases hitem
  | _ => cases h

theorem Operand.epochMillis_ne_malformed (value : Operand) (detail : String) :
    value.epochMillis ≠ .error (.malformedClause detail) := by
  intro h
  cases value with
  | text text =>
    rw [epochMillis] at h
    split at h <;> cases h
  | _ => cases h

/-- A leaf that has no condition is to blame on its symbol or its value. -/
theorem Condition.leaf_ne_malformed (name symbol : String) (value : Operand) (detail : String) :
    Condition.leaf name symbol value ≠ .error (.malformedClause detail) := by
  intro h
  rw [leaf] at h
  split at h
  · cases h
  rcases bind_eq_error_iff.1 h with hsymbol | ⟨operator, -, h⟩
  · rw [Operator.ofSymbol] at hsymbol
    split at hsymbol <;> cases hsymbol
  rcases bind_eq_error_iff.1 h with hvalue | ⟨comparand, -, h⟩
  · rw [comparandFor] at hvalue
    split at hvalue
    · cases hmillis : value.epochMillis with
      | ok millis =>
        rw [hmillis] at hvalue
        cases hvalue
      | error fault =>
        rw [hmillis] at hvalue
        cases hvalue
        exact value.epochMillis_ne_malformed detail hmillis
    · exact Comparand.ofOperand_ne_malformed value detail hvalue
  · cases h

namespace Clause

variable {cs left right segment : List Char} {connective : Connective}
  {values rest unused : List Operand}

/-! ### The leaves of a text -/

/-- The leaves that the search comes to in a text, each with the values that are left for it.  A text
without a connective is a leaf, and so is what stands before the first connective; once that leaf has
taken its value, the search goes on behind the connective. -/
inductive Visits : List Char → List Operand → List Char → List Operand → Prop
  | whole {cs : List Char} {values : List Operand} (htext : words cs ≠ [])
      (hcut : splitConnective? cs = none) : Visits cs values cs values
  | first {cs left right : List Char} {connective : Connective} {values : List Operand}
      (hcut : splitConnective? cs = some (left, connective, right)) : Visits cs values left values
  | later {cs left right segment : List Char} {connective : Connective}
      {values more rest : List Operand} {leaf : Condition}
      (hcut : splitConnective? cs = some (left, connective, right))
      (hleaf : textLeaf (words left) values = .ok (leaf, more))
      (hvisits : Visits right more segment rest) : Visits cs values segment rest

/-- Induction along the search. -/
theorem text_induction {p : List Char → Prop} (blank : ∀ cs, Gap cs → p cs)
    (whole : ∀ cs, words cs ≠ [] → splitConnective? cs = none → p cs)
    (cut : ∀ cs left connective right, words cs ≠ [] →
      splitConnective? cs = some (left, connective, right) → p right → p cs)
    (cs : List Char) : p cs := by
  induction hlength : cs.length using Nat.strong_induction_on generalizing cs with
  | _ n ih =>
    by_cases hwords : words cs = []
    · have hempty : Text.words cs = [] := List.map_eq_nil_iff.1 hwords
      exact blank cs ((words_eq_nil_iff cs).1 hempty)
    · cases hcut : splitConnective? cs with
      | none => exact whole cs hwords hcut
      | some parts =>
        obtain ⟨left, connective, right⟩ := parts
        have hshort : right.length < n := hlength ▸ splitConnective?_length hcut
        exact cut cs left connective right hwords hcut (ih _ hshort right rfl)

theorem not_visits_gap (hgap : Gap cs) : ¬ Visits cs values segment rest := by
  have hcut := splitConnective?_gap hgap
  intro h
  cases h with
  | whole htext => exact htext (words_of_gap hgap)
  | first h => rw [hcut] at h; cases h
  | later h => rw [hcut] at h; cases h

theorem visits_whole_iff (htext : words cs ≠ []) (hcut : splitConnective? cs = none) :
    Visits cs values segment rest ↔ segment = cs ∧ rest = values := by
  constructor
  · intro h
    cases h with
    | whole => exact ⟨rfl, rfl⟩
    | first h => rw [hcut] at h; cases h
    | later h => rw [hcut] at h; cases h
  · rintro ⟨rfl, rfl⟩
    exact .whole htext hcut

theorem visits_cut_iff (hcut : splitConnective? cs = some (left, connective, right)) :
    Visits cs values segment rest
      ↔ (segment = left ∧ rest = values)
        ∨ ∃ leaf more, textLeaf (words left) values = .ok (leaf, more)
          ∧ Visits right more segment rest := by
  constructor
  · intro h
    cases h with
    | whole _ h => rw [hcut] at h; cases h
    | first h =>
      rw [hcut] at h
      cases h
      exact Or.inl ⟨rfl, rfl⟩
    | later h hleaf hvisits =>
      rw [hcut] at h
      cases h
      exact Or.inr ⟨_, _, hleaf, hvisits⟩
  · rintro (⟨rfl, rfl⟩ | ⟨leaf, more, hleaf, hvisits⟩)
    · exact .first hcut
    · exact .later hcut hleaf hvisits

/-! ### Placeholders on both sides of a cut -/

theorem splitWords_parts {openStart openEnd : Bool} {ws before after : List String}
    (h : splitWords openStart openEnd ws = some (before, connective, after)) :
    ∃ word, ws = before ++ word :: after ∧ Connective.ofWord? word = some connective := by
  induction ws generalizing openStart before with
  | nil => cases h
  | cons w ws ih =>
    rw [splitWords] at h
    split at h
    · rename_i found hfound
      cases h
      split at hfound
      · exact ⟨w, rfl, hfound⟩
      · cases hfound
    · obtain ⟨⟨before', connective', after'⟩, hmore, hsame⟩ := Option.map_eq_some_iff.1 h
      cases hsame
      obtain ⟨word, rfl, hword⟩ := ih hmore
      exact ⟨word, rfl, hword⟩

/-- **A cut parts the words of a text**: those before it, the connective, and those after it. -/
theorem words_splitConnective? (h : splitConnective? cs = some (left, connective, right)) :
    ∃ word, words cs = words left ++ word :: words right
      ∧ Connective.ofWord? word = some connective := by
  have hcut := splitWords_words cs
  rw [h] at hcut
  exact splitWords_parts hcut.symm

/-- The connective is no placeholder, so the cut parts the placeholders too. -/
theorem count_splitConnective? (h : splitConnective? cs = some (left, connective, right)) :
    (words cs).count placeholder
      = (words left).count placeholder + (words right).count placeholder := by
  obtain ⟨word, hwords, hword⟩ := words_splitConnective? h
  have hother : word ≠ placeholder := beq_eq_false_iff_ne.1 (ne_placeholder hword)
  rw [hwords, List.count_append, List.count_cons_of_ne hother]

/-- The words of a leaf that has taken its value. -/
theorem exists_words_of_textLeaf {ws : List String} {leaf : Condition}
    (h : textLeaf ws values = .ok (leaf, rest)) :
    values.length = rest.length + 1 ∧ ∃ name symbol, ws = [name, symbol, placeholder] := by
  obtain ⟨name, symbol, value, hwords, rfl, -⟩ := textLeaf_eq_ok_iff.1 h
  exact ⟨rfl, name, symbol, hwords⟩

/-- A leaf with a placeholder for its attribute or its symbol. -/
def Marked (segment : List Char) : Prop :=
  ∃ name symbol, words segment = [name, symbol, "?"] ∧ (name = "?" ∨ symbol = "?")

/-- Such a leaf has more than one placeholder. -/
theorem marked_iff {name symbol : String} (h : words segment = [name, symbol, placeholder]) :
    1 ≤ (words segment).count placeholder
    ∧ (1 < (words segment).count placeholder ↔ Marked segment) := by
  have hmarked : Marked segment ↔ name = placeholder ∨ symbol = placeholder := by
    constructor
    · rintro ⟨name', symbol', hwords, hmark⟩
      rw [h] at hwords
      cases hwords
      exact hmark
    · intro hmark
      exact ⟨name, symbol, h, hmark⟩
  rw [hmarked, h]
  simp only [List.count_cons, List.count_nil, beq_self_eq_true, if_true, beq_iff_eq]
  by_cases hname : name = placeholder <;> by_cases hsymbol : symbol = placeholder <;>
    simp [hname, hsymbol]

/-! ### Values that are left -/

/-- **The values that are left are enough for the placeholders of a leaf**, if all of them are enough
for the text. -/
theorem Visits.count_le (h : Visits cs values segment rest)
    (hcount : (words cs).count placeholder ≤ values.length) :
    (words segment).count placeholder ≤ rest.length := by
  induction h with
  | whole => exact hcount
  | first hcut =>
    rw [count_splitConnective? hcut] at hcount
    omega
  | later hcut hleaf _ ih =>
    -- the leaf has a placeholder, and takes one value
    apply ih
    obtain ⟨hlength, name, symbol, hwords⟩ := exists_words_of_textLeaf hleaf
    have hone := (marked_iff hwords).1
    rw [count_splitConnective? hcut] at hcount
    omega

/-- Where a leaf has enough values, it has one to take. -/
theorem textLeaf_ne_noValueLeft {ws : List String} (h : ws.count placeholder ≤ values.length) :
    textLeaf ws values ≠ .error noValueLeft := by
  intro herror
  rw [textLeaf.eq_def] at herror
  split at herror
  · rename_i name symbol mark
    split at herror
    · rename_i hmark
      split at herror
      · rename_i value more
        cases hleaf : Condition.leaf name symbol value with
        | ok leaf =>
          rw [hleaf] at herror
          cases herror
        | error fault =>
          rw [hleaf] at herror
          cases herror
          exact Condition.leaf_ne_malformed name symbol value _ hleaf
      · have hpos : 0 < [name, symbol, mark].count placeholder :=
          List.count_pos_iff.2 (by simp [hmark])
        exact absurd h (Nat.not_le.2 hpos)
    · exact absurd (Except.error.inj herror) (by decide)
  · exact absurd (Except.error.inj herror) (by decide)

/-- A text fails at a leaf that is visited, or because a leaf is missing. -/
theorem visits_of_error {fault : Fault} (h : textual cs values = .error fault) :
    fault = notALeaf
    ∨ ∃ segment rest, Visits cs values segment rest ∧ textLeaf (words segment) rest = .error fault := by
  induction cs using text_induction generalizing values with
  | blank cs hgap =>
    rw [textual_eq_ok_none_iff.2 ⟨hgap, rfl⟩] at h
    cases h
  | whole cs htext hcut =>
    rw [textual_of_no_cut htext hcut] at h
    cases hleaf : textLeaf (words cs) values with
    | ok found =>
      rw [hleaf] at h
      cases h
    | error found =>
      rw [hleaf] at h
      cases h
      exact Or.inr ⟨cs, values, .whole htext hcut, hleaf⟩
  | cut cs left connective right htext hcut ih =>
    rw [textual_of_cut htext hcut] at h
    rcases bind_eq_error_iff.1 h with hleaf | ⟨⟨leaf, more⟩, hleaf, h⟩
    · exact Or.inr ⟨left, values, .first hcut, hleaf⟩
    · rcases bind_eq_error_iff.1 h with hright | ⟨⟨tree?, last⟩, -, h⟩
      · rcases ih hright with hmissing | ⟨segment, rest, hvisits, hfault⟩
        · exact Or.inl hmissing
        · exact Or.inr ⟨segment, rest, .later hcut hleaf hvisits, hfault⟩
      · cases tree? with
        | none => exact Or.inl (Except.error.inj h).symm
        | some tree => cases h

/-- **What a text that is read leaves over**: a value for every placeholder that stands for the
attribute or the symbol of a leaf. -/
theorem values_left_iff {found : Option Condition} (h : textual cs values = .ok (found, unused)) :
    values.length ≤ (words cs).count placeholder + unused.length
    ∧ (values.length < (words cs).count placeholder + unused.length
      ↔ ∃ segment rest, Visits cs values segment rest ∧ Marked segment) := by
  induction cs using text_induction generalizing values found with
  | blank cs hgap =>
    rw [textual_eq_ok_none_iff.2 ⟨hgap, rfl⟩] at h
    cases h
    rw [words_of_gap hgap, List.count_nil, Nat.zero_add]
    refine ⟨le_rfl, fun hlt => absurd hlt (lt_irrefl _), ?_⟩
    rintro ⟨segment, rest, hvisits, -⟩
    exact absurd hvisits (not_visits_gap hgap)
  | whole cs htext hcut =>
    rw [textual_of_no_cut htext hcut] at h
    obtain ⟨⟨leaf, more⟩, hleaf, hsame⟩ := map_eq_ok_iff.1 h
    cases hsame
    obtain ⟨hlength, name, symbol, hwords⟩ := exists_words_of_textLeaf hleaf
    obtain ⟨hone, hmarked⟩ := marked_iff hwords
    have hvisited : (∃ segment rest, Visits cs values segment rest ∧ Marked segment) ↔ Marked cs := by
      simp [visits_whole_iff htext hcut]
    rw [hvisited, ← hmarked]
    omega
  | cut cs left connective right htext hcut ih =>
    rw [textual_of_cut htext hcut] at h
    obtain ⟨⟨leaf, more⟩, hleaf, h⟩ := bind_eq_ok_iff.1 h
    obtain ⟨⟨tree?, last⟩, hright, h⟩ := bind_eq_ok_iff.1 h
    have hlast : last = unused := by
      cases tree? with
      | none => cases h
      | some tree =>
        cases h
        rfl
    subst hlast
    obtain ⟨hlength, name, symbol, hwords⟩ := exists_words_of_textLeaf hleaf
    obtain ⟨hone, hmarked⟩ := marked_iff hwords
    obtain ⟨hle, hright⟩ := ih hright
    have hvisited : (∃ segment rest, Visits cs values segment rest ∧ Marked segment)
        ↔ Marked left ∨ ∃ segment rest, Visits right more segment rest ∧ Marked segment := by
      simp only [visits_cut_iff hcut, hleaf, Except.ok.injEq, Prod.mk.injEq]
      constructor
      · rintro ⟨segment, rest, ⟨rfl, -⟩ | ⟨_, _, ⟨rfl, rfl⟩, hvisits⟩, hmark⟩
        · exact Or.inl hmark
        · exact Or.inr ⟨segment, rest, hvisits, hmark⟩
      · rintro (hmark | ⟨segment, rest, hvisits, hmark⟩)
        · exact ⟨left, values, Or.inl ⟨rfl, rfl⟩, hmark⟩
        · exact ⟨segment, rest, Or.inr ⟨leaf, more, ⟨rfl, rfl⟩, hvisits⟩, hmark⟩
    rw [hvisited, ← hmarked, ← hright, count_splitConnective? hcut]
    omega

/-! ### Clauses -/

/-- A text with as many placeholders as there are values has a value for each of its leaves. -/
theorem textual_ne_noValueLeft (hcount : (words cs).count placeholder ≤ values.length) :
    textual cs values ≠ .error noValueLeft := by
  intro h
  rcases visits_of_error h with hmissing | ⟨segment, rest, hvisits, hfault⟩
  · exact absurd hmissing (by decide)
  · exact textLeaf_ne_noValueLeft (hvisits.count_le hcount) hfault

theorem named?_ne_malformed (pairs : List (String × Operand)) (detail : String) :
    named? pairs ≠ .error (.malformedClause detail) := by
  intro h
  rw [named?] at h
  cases hleaves : pairs.mapM namedLeaf with
  | ok leaves =>
    rw [hleaves] at h
    cases h
  | error fault =>
    rw [hleaves] at h
    cases h
    obtain ⟨_, pair, _, -, -, hpair⟩ := mapM_eq_error_iff.1 hleaves
    exact Condition.leaf_ne_malformed _ _ _ detail hpair

theorem condition_ne_noValueLeft (clause : Clause) : clause.condition ≠ .error noValueLeft := by
  intro h
  rw [condition] at h
  split at h
  · exact absurd (Except.error.inj h) (by decide)
  dsimp only at h
  split at h
  · exact absurd (Except.error.inj h) (by decide)
  · rename_i hcount
    rcases bind_eq_error_iff.1 h with hnamed | ⟨named, -, h⟩
    · exact named?_ne_malformed clause.named _ hnamed
    rcases bind_eq_error_iff.1 h with htextual | ⟨⟨textual?, rest⟩, -, h⟩
    · exact textual_ne_noValueLeft (not_not.1 hcount).le htextual
    · -- what is left to check has faults of its own
      split at h
      · exact absurd (Except.error.inj h) (by decide)
      · dsimp only at h
        split at h
        · cases h
        · exact absurd (Except.error.inj h) (by decide)

/-- **No clause runs out of values.**  If a text has as many placeholders as there are values, then
wherever the search comes to a leaf, the values that are left are enough for the placeholders of the
leaf, so a leaf of an attribute, a symbol and a placeholder finds its value.  When the text has been
read, a value is left over iff there has been a leaf with a placeholder for its attribute or its
symbol. -/
theorem values_suffice (clause : Clause) :
    let text := clause.text.toList
    clause.condition ≠ .error (.malformedClause "insufficient values for formatting")
    ∧ ((words text).count "?" = clause.values.length →
      (∀ segment rest, Visits text clause.values segment rest →
        (words segment).count "?" ≤ rest.length
        ∧ (∀ name symbol, words segment = [name, symbol, "?"] → rest ≠ [])
        ∧ textLeaf (words segment) rest
          ≠ .error (.malformedClause "insufficient values for formatting"))
      ∧ ∀ found unused, textual text clause.values = .ok (found, unused) →
        (unused ≠ [] ↔ ∃ segment rest, Visits text clause.values segment rest ∧ Marked segment)) := by
  intro text
  refine ⟨clause.condition_ne_noValueLeft, fun hcount => ⟨?_, ?_⟩⟩
  · intro segment rest hvisits
    have hle := hvisits.count_le hcount.le
    refine ⟨hle, ?_, textLeaf_ne_noValueLeft hle⟩
    rintro name symbol hwords rfl
    have hone := (marked_iff hwords).1
    rw [List.length_nil] at hle
    omega
  · intro found unused htextual
    have hlength : unused ≠ [] ↔ 0 < unused.length := List.length_pos_iff.symm
    have hmarks : (words text).count placeholder = clause.values.length := hcount
    rw [hlength, ← (values_left_iff htextual).2, hmarks]
    omega

/-- A clause with a leaf whose attribute is a placeholder too. -/
def markedName : Clause where
  text := "? = ? AND b = ?"
  values := [.integer 1, .integer 2, .integer 3]

/-- The count is right and both leaves find a value, but the last value is left over. -/
theorem values_suffice_markedName :
    markedName.condition ≠ .error (.malformedClause "insufficient values for formatting")
    ∧ (words markedName.text.toList).count "?" = markedName.values.length
    ∧ ∃ found unused, textual markedName.text.toList markedName.values = .ok (found, unused)
      ∧ unused ≠ []
      ∧ ∃ segment rest, Visits markedName.text.toList markedName.values segment rest
        ∧ Marked segment := by
  have hwords : words markedName.text.toList = ["?", "=", "?", "AND", "b", "=", "?"] := by decide
  have hcount : (words markedName.text.toList).count "?" = markedName.values.length := by
    decide
  have hleaf : ∀ name n, timestampPath? name = none →
      Leaf name "=" (.integer n) (.comparison name .equal (.integer n)) := fun name n hname =>
    .literal hname .equal (.integer n)
  obtain ⟨hnever, hsuffice⟩ := values_suffice markedName
  have hchain : Chain (fun _ => True) ["?", "=", "?", "AND", "b", "=", "?"]
      [.integer 1, .integer 2] (.join .and (.comparison "?" .equal (.integer 1))
        (.comparison "b" .equal (.integer 2))) :=
    .link trivial trivial (by decide) (hleaf "?" 1 (by decide))
      (Connective.ofWord?_eq_some_iff.1 (by decide))
      (.last trivial trivial (by decide) (hleaf "b" 2 (by decide)))
  have htextual := textual_eq_ok_iff.2 ⟨[.integer 1, .integer 2],
    show markedName.values = _ ++ [.integer 3] from rfl, hwords ▸ hchain,
    freeStart_of_not_startsBlank (by decide) _⟩
  have hunused : [Operand.integer 3] ≠ [] := List.cons_ne_nil _ _
  exact ⟨hnever, hcount, _, _, htextual, hunused,
    ((hsuffice hcount).2 _ _ htextual).1 hunused⟩

end Clause

end VectorQuery
