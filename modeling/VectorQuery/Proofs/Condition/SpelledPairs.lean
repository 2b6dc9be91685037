import Mathlib
import VectorQuery.Proofs.Condition.Leaves

/-!
# Named pairs spelt out

Named pairs can be spelt out as a text: `attribute symbol ?` for each pair, with `AND` in between,
and the values bound to the placeholders.  The pairs are joined one after another, the text is cut at
its first connective again and again; still both take the leaves in the order of the pairs, so they
end in the same fault or with the same leaves.

* `Condition.allRight?` — conditions joined from the right;
* `Condition.LeftNested`, `Condition.RightNested` — the two shapes of a chain of leaves;
* `Clause.spelled` — the clause that spells pairs out;
* `Clause.words_spelled` — the words of its text, whatever characters the attributes have;
* `Clause.textual_of_words` — what a text with these words says;
* `Clause.named_spelled_agree` — **a clause of named pairs and the one that spells them out agree**.
-/

namespace VectorQuery

open Text Outcome

namespace Condition

/-! ### Chains of leaves -/

/-- A condition without joins. -/
def IsLeaf : Condition → Prop
  | .join _ _ _ => False
  | _ => True

/-- A chain of leaves that is joined from the left. -/
def LeftNested : Condition → Prop
  | .join _ left right => left.LeftNested ∧ right.IsLeaf
  | _ => True

/-- A chain of leaves that is joined from the right. -/
def RightNested : Condition → Prop
  | .join _ left right => left.IsLeaf ∧ right.RightNested
  | _ => True

/-- All conditions hold, joined from the right; none if there is no condition. -/
def allRight? (cs : List Condition) : Option Condition :=
  cs.foldr (fun c rest => both? (some c) rest) none

/-- Up to two conditions have one way to be joined. -/
theorem allRight?_eq_all? {cs : List Condition} (h : cs.length ≤ 2) : allRight? cs = all? cs := by
  match cs, h with
  | [], _ => rfl
  | [_], _ => rfl
  | [_, _], _ => rfl

theorem exists_allRight? {cs : List Condition} (h : cs ≠ []) :
    ∃ tree, allRight? cs = some tree ∧ ∀ c, allRight? (c :: cs) = some (c.and tree) := by
  obtain ⟨first, others, rfl⟩ := List.exists_cons_of_ne_nil h
  have hrest : ∀ rest? : Option Condition, ∃ tree, both? (some first) rest? = some tree := by
    intro rest?
    cases rest? <;> exact ⟨_, rfl⟩
  obtain ⟨tree, htree⟩ := hrest (allRight? others)
  refine ⟨tree, htree, fun c => ?_⟩
  show both? (some c) (both? (some first) (allRight? others)) = _
  rw [htree]
  rfl

/-- A leaf is a chain of either shape. -/
theorem IsLeaf.chain {c : Condition} (h : c.IsLeaf) :
    c.Conjunctive ∧ c.LeftNested ∧ c.RightNested := by
  cases c with
  | join => exact h.elim
  | _ => exact ⟨trivial, trivial, trivial⟩

theorem leftNested_foldl {c : Condition} {leaves : List Condition} (hc : c.LeftNested)
    (hleaves : ∀ leaf ∈ leaves, leaf.IsLeaf) : (leaves.foldl and c).LeftNested := by
  induction leaves generalizing c with
  | nil => exact hc
  | cons leaf leaves ih =>
    rw [List.forall_mem_cons] at hleaves
    exact ih ⟨hc, hleaves.1⟩ hleaves.2

theorem leavesOf_allRight? (cs : List Condition) : leavesOf (allRight? cs) = cs.flatMap leafList := by
  induction cs with
  | nil => rfl
  | cons c cs ih =>
    show leavesOf (both? (some c) (allRight? cs)) = _
    rw [leavesOf_both?, leavesOf_some, ih, List.flatMap_cons]

/-- Leaves joined from the right make a chain of conjunctions. -/
theorem allRight?_leaves {leaves : List Condition} (hleaves : ∀ leaf ∈ leaves, leaf.IsLeaf) :
    ∀ c ∈ allRight? leaves, c.Conjunctive ∧ c.RightNested := by
  induction leaves with
  | nil => nofun
  | cons leaf leaves ih =>
    rw [List.forall_mem_cons] at hleaves
    intro c hc
    rw [show allRight? (leaf :: leaves) = both? (some leaf) (allRight? leaves) from rfl] at hc
    have hrest := ih hleaves.2
    cases hright : allRight? leaves with
    | none =>
      rw [hright] at hc
      cases hc
      exact ⟨hleaves.1.chain.1, hleaves.1.chain.2.2⟩
    | some right =>
      obtain ⟨hconjunctive, hnested⟩ := hrest right hright
      rw [hright] at hc
      cases hc
      exact ⟨⟨rfl, hleaves.1.chain.1, hconjunctive⟩, hleaves.1, hnested⟩

end Condition

namespace Clause

theorem Leaf.isLeaf {name symbol : String} {value : Operand} {c : Condition}
    (h : Leaf name symbol value c) : c.IsLeaf := by
  cases h <;> trivial

/-! ### Pairs as words -/

/-- The text of a named pair: a list asks for any of its items, any other value for equality. -/
def pairText : String × Operand → String
  | (name, .list _) => name ++ " CONTAINS_ANY ?"
  | (name, _) => name ++ " = ?"

/-- The clause that spells named pairs out. -/
def spelled (pairs : List (String × Operand)) : Clause where
  text := " AND ".intercalate (pairs.map pairText)
  values := pairs.map (·.2)

/-- The words of named pairs that are spelt out. -/
def pairWords : List (String × Operand) → List String
  | [] => []
  | [pair] => [pair.1, namedSymbol pair.2, placeholder]
  | pair :: pairs => pair.1 :: namedSymbol pair.2 :: placeholder :: "AND" :: pairWords pairs

theorem words_char {c : Char} (hc : isBlank c = true) (cs ds : List Char) :
    words (cs ++ c :: ds) = words cs ++ words ds := by
  rw [words, words_append hc, List.map_append]
  rfl

theorem words_string {word : String} (h : Word word.toList) : words word.toList = [word] := by
  rw [words, words_self h, List.map_singleton, String.ofList_toList]

theorem pairText_toList (pair : String × Operand) :
    (pairText pair).toList
      = pair.1.toList ++ ' ' :: ((namedSymbol pair.2).toList ++ ' ' :: ['?']) := by
  obtain ⟨name, value⟩ := pair
  cases value <;> simp [pairText, namedSymbol, Operand.isList]

theorem words_pairText {pair : String × Operand} (hname : Word pair.1.toList) :
    words (pairText pair).toList = [pair.1, namedSymbol pair.2, placeholder] := by
  have hsymbol : words (namedSymbol pair.2).toList = [namedSymbol pair.2] := by
    rw [namedSymbol]
    split <;> rfl
  have hmark : words ['?'] = [placeholder] := rfl
  rw [pairText_toList, words_char (by decide), words_char (by decide), words_string hname, hsymbol, hmark]
  rfl

/-- The words of the text that spells pairs out; attributes may have any characters but blanks. -/
theorem words_spelled {pairs : List (String × Operand)} (hnames : ∀ pair ∈ pairs, Word pair.1.toList) :
    words (spelled pairs).text.toList = pairWords pairs := by
  rw [spelled, String.toList_intercalate, List.map_map]
  induction pairs with
  | nil => rfl
  | cons pair pairs ih =>
    rw [List.forall_mem_cons] at hnames
    cases pairs with
    | nil =>
      rw [List.map_singleton, List.intercalate_singleton]
      exact words_pairText hnames.1
    | cons next pairs =>
      have hand : words ['A', 'N', 'D'] = ["AND"] := rfl
      have hrest := ih hnames.2
      rw [List.map_cons] at hrest
      rw [List.map_cons, List.map_cons, List.intercalate_cons_cons, List.append_assoc]
      show words ((pairText pair).toList
        ++ ' ' :: (['A', 'N', 'D'] ++ ' ' :: List.intercalate _ _)) = _
      rw [words_char (by decide), words_char (by decide), words_pairText hnames.1, hand, hrest]
      rfl

/-- The text begins with the first attribute. -/
theorem startsBlank_spelled {pairs : List (String × Operand)} (hpairs : pairs ≠ [])
    (hnames : ∀ pair ∈ pairs, Word pair.1.toList) :
    startsBlank (spelled pairs).text.toList = false := by
  obtain ⟨pair, pairs, rfl⟩ := List.exists_cons_of_ne_nil hpairs
  have hname := not_startsBlank_word (hnames pair List.mem_cons_self)
  rw [spelled, String.toList_intercalate, List.map_map, List.map_cons]
  show startsBlank (List.intercalate _ ((pairText pair).toList :: _)) = false
  cases pairs with
  | nil =>
    rw [List.map_nil, List.intercalate_singleton, pairText_toList]
    exact hname _
  | cons next pairs =>
    rw [List.map_cons, List.intercalate_cons_cons, pairText_toList, List.append_assoc,
      List.append_assoc]
    exact hname _

/-- The placeholders among the words are those for the values. -/
theorem count_pairWords {pairs : List (String × Operand)}
    (hnames : ∀ pair ∈ pairs, pair.1 ≠ placeholder) :
    (pairWords pairs).count placeholder = pairs.length := by
  have hsymbol : ∀ value, namedSymbol value ≠ placeholder := by
    intro value
    rw [namedSymbol]
    split <;> decide
  induction pairs with
  | nil => rfl
  | cons pair pairs ih =>
    rw [List.forall_mem_cons] at hnames
    cases pairs with
    | nil => simp [pairWords, hnames.1, hsymbol]
    | cons next pairs =>
      have hand : "AND" ≠ placeholder := by decide
      rw [pairWords, List.count_cons_of_ne hnames.1, List.count_cons_of_ne (hsymbol _),
        List.count_cons_self, List.count_cons_of_ne hand, ih hnames.2]
      · rfl
      · exact List.cons_ne_nil _ _

/-- The leaves that pairs give are leaves. -/
theorem isLeaf_of_forall₂ {pairs : List (String × Operand)} {leaves : List Condition}
    (h : List.Forall₂ (fun pair leaf => namedLeaf pair = .ok leaf) pairs leaves) :
    ∀ leaf ∈ leaves, leaf.IsLeaf := by
  induction h with
  | nil => exact List.forall_mem_nil _
  | cons hleaf _ ih =>
    obtain ⟨symbol, hleaf⟩ := (namedLeaf_eq_ok_iff.1 hleaf).leaf
    exact List.forall_mem_cons.2 ⟨hleaf.isLeaf, ih⟩

/-! ### What the text says -/

theorem ofWord?_namedSymbol (value : Operand) : Connective.ofWord? (namedSymbol value) = none := by
  rw [namedSymbol]
  split <;> decide

theorem textLeaf_pair (pair : String × Operand) (values : List Operand) :
    textLeaf [pair.1, namedSymbol pair.2, placeholder] (pair.2 :: values)
      = (namedLeaf pair).map fun leaf => (leaf, values) := by
  rw [textLeaf, if_pos rfl]
  rfl

theorem textual_of_no_cut {cs : List Char} (hwords : words cs ≠ []) (hcut : splitConnective? cs = none)
    (values : List Operand) :
    textual cs values = (textLeaf (words cs) values).map fun (leaf, rest) => (some leaf, rest) := by
  have htext : ¬ (trim cs).isEmpty = true := fun hblank =>
    hwords (words_of_gap ((trim_isEmpty_iff cs).1 hblank))
  rw [textual, if_neg htext]
  split
  · cases textLeaf (words cs) values <;> rfl
  · rename_i hsome
    rw [hcut] at hsome
    cases hsome

/-- A text that is cut says what stands before the cut, then what stands after it. -/
theorem textual_of_cut {cs left right : List Char} {connective : Connective} (hwords : words cs ≠ [])
    (hcut : splitConnective? cs = some (left, connective, right)) (values : List Operand) :
    textual cs values = textLeaf (words left) values >>= fun (leaf, more) =>
      textual right more >>= fun
        | (some tree, rest) => .ok (some (.join connective leaf tree), rest)
        | (none, _) => .error notALeaf := by
  have htext : ¬ (trim cs).isEmpty = true := fun hblank =>
    hwords (words_of_gap ((trim_isEmpty_iff cs).1 hblank))
  rw [textual, if_neg htext]
  split
  · rename_i hnone
    rw [hcut] at hnone
    cases hnone
  · rename_i hsome
    rw [hcut] at hsome
    cases hsome
    rfl

/-- A text with the words of pairs says that their leaves hold, joined from the right; the leaves are
made in the order of the pairs. -/
theorem textual_of_words {pairs : List (String × Operand)} (hpairs : pairs ≠ []) {cs : List Char}
    (hwords : words cs = pairWords pairs) (hstart : startsBlank cs = false) :
    textual cs (pairs.map (·.2))
      = (pairs.mapM namedLeaf).map fun leaves => (Condition.allRight? leaves, []) := by
  induction pairs generalizing cs with
  | nil => exact absurd rfl hpairs
  | cons pair pairs ih =>
    have hcut := splitWords_words cs
    have hne : words cs ≠ [] := by
      rw [hwords]
      cases pairs <;> exact List.cons_ne_nil _ _
    have hfree := freeStart_of_not_startsBlank hstart
    have hsymbol := ofWord?_namedSymbol pair.2
    cases pairs with
    | nil =>
      rw [hwords, pairWords, (splitWords_last _ _ _ _).2 ⟨hfree _, hsymbol⟩,
        Option.map_eq_none_iff] at hcut
      rw [textual_of_no_cut hne hcut, hwords, List.mapM_cons, List.mapM_nil]
      show (textLeaf [pair.1, namedSymbol pair.2, placeholder] [pair.2]).map _ = _
      rw [textLeaf_pair]
      cases namedLeaf pair <;> rfl
    | cons next pairs =>
      have hnext : pairWords (next :: pairs) ≠ [] := by cases pairs <;> exact List.cons_ne_nil _ _
      have hand : Connective.ofWord? "AND" = some .and := by decide
      have hlink : pairWords (pair :: next :: pairs)
          = pair.1 :: namedSymbol pair.2 :: placeholder :: "AND" :: pairWords (next :: pairs) := rfl
      rw [hwords, hlink, splitWords_link _ hnext (hfree _) hsymbol hand] at hcut
      obtain ⟨⟨left, connective, right⟩, hsplit, hparts⟩ := Option.map_eq_some_iff.1 hcut
      rw [wordsOfCut, Prod.mk.injEq, Prod.mk.injEq] at hparts
      obtain ⟨hleft, rfl, hright⟩ := hparts
      have hrest := ih (List.cons_ne_nil _ _) hright (startsBlank_splitConnective? hsplit)
      rw [textual_of_cut hne hsplit, hleft, List.map_cons, textLeaf_pair, List.mapM_cons]
      cases namedLeaf pair with
      | error fault => rfl
      | ok leaf =>
        show (textual right ((next :: pairs).map (·.2)) >>= _) = _
        rw [hrest]
        cases hleaves : (next :: pairs).mapM namedLeaf with
        | error fault => rfl
        | ok leaves =>
          -- there is a leaf after the connective, so there is something to join
          have hne : leaves ≠ [] := by
            rintro rfl
            cases mapM_eq_ok_iff.1 hleaves
          obtain ⟨tree, htree, hjoined⟩ := Condition.exists_allRight? hne
          simp only [Except.map, htree]
          show _ = Except.ok (Condition.allRight? (leaf :: leaves), [])
          rw [hjoined]
          rfl

/-! ### Agreement -/

/-- The clause that spells pairs out joins their leaves from the right. -/
theorem condition_spelled {pairs : List (String × Operand)} (hpairs : pairs ≠ [])
    (hnames : ∀ pair ∈ pairs, Word pair.1.toList ∧ pair.1 ≠ placeholder) :
    (spelled pairs).condition = (pairs.mapM namedLeaf).map Condition.allRight? >>= given := by
  have hwords := words_spelled fun pair hpair => (hnames pair hpair).1
  have hcount : (words (spelled pairs).text.toList).count placeholder
      = (spelled pairs).values.length := by
    rw [hwords, count_pairWords fun pair hpair => (hnames pair hpair).2]
    exact (List.length_map _).symm
  have hvalues : (spelled pairs).values ≠ [] := by simpa [spelled] using hpairs
  have htextual : textual (spelled pairs).text.toList (spelled pairs).values
      = ((pairs.mapM namedLeaf).map Condition.allRight?).map fun c? => (c?, []) := by
    have htext := textual_of_words hpairs hwords
      (startsBlank_spelled hpairs fun pair hpair => (hnames pair hpair).1)
    refine htext.trans ?_
    cases pairs.mapM namedLeaf <;> rfl
  exact condition_eq (Or.inl hvalues) hcount htextual

/-- **Named pairs and the text that spells them out agree.**  Both clauses end in the same fault, or
both have a condition: the same leaves from left to right, joined by conjunctions only, from the left
for the named pairs and from the right for the text.  Up to two pairs give the same tree. -/
theorem named_spelled_agree {pairs : List (String × Operand)} (hpairs : pairs ≠ [])
    (hnames : ∀ pair ∈ pairs, Word pair.1.toList ∧ pair.1 ≠ "?") :
    (∃ fault, (ofPairs pairs).condition = .error fault ∧ (spelled pairs).condition = .error fault)
    ∨ ∃ named textual, (ofPairs pairs).condition = .ok named ∧ (spelled pairs).condition = .ok textual
      ∧ named.Conjunctive ∧ textual.Conjunctive ∧ named.LeftNested ∧ textual.RightNested
      ∧ named.leafList = textual.leafList ∧ (pairs.length ≤ 2 → named = textual) := by
  rw [condition_ofPairs hpairs, condition_spelled hpairs hnames]
  cases hmade : pairs.mapM namedLeaf with
  | error fault => exact Or.inl ⟨fault, rfl, rfl⟩
  | ok leaves =>
    have hforall := mapM_eq_ok_iff.1 hmade
    have hleaves : ∀ leaf ∈ leaves, leaf.IsLeaf := isLeaf_of_forall₂ hforall
    have hlength := hforall.length_eq
    obtain ⟨first, others, rfl⟩ : ∃ first others, leaves = first :: others := by
      apply List.exists_cons_of_ne_nil
      rintro rfl
      exact hpairs (List.forall₂_nil_right_iff.1 hforall)
    obtain ⟨textual, htextual, -⟩ := Condition.exists_allRight? (List.cons_ne_nil first others)
    obtain ⟨hconjunctive, hnested⟩ := Condition.allRight?_leaves hleaves textual htextual
    have hlist : textual.leafList = (others.foldl Condition.and first).leafList := by
      rw [← Condition.leavesOf_some, ← htextual, Condition.leavesOf_allRight?, List.flatMap_cons,
        Condition.leafList_foldl]
    rw [List.forall_mem_cons] at hleaves
    refine Or.inr ⟨others.foldl Condition.and first, textual, rfl, ?_, ?_, hconjunctive, ?_, hnested,
      hlist.symm, ?_⟩
    · show given (Condition.allRight? (first :: others)) = _
      rw [htextual]
      rfl
    · exact Condition.conjunctive_foldl hleaves.1.chain.1 fun leaf h => (hleaves.2 leaf h).chain.1
    · exact Condition.leftNested_foldl hleaves.1.chain.2.1 hleaves.2
    · intro hshort
      rw [hlength] at hshort
      have hsame := Condition.allRight?_eq_all? hshort
      rw [htextual] at hsame
      exact (Option.some.inj hsame).symm

/-- Attributes that look like connectives, or have a placeholder or a quote inside. -/
def oddPairs : List (String × Operand) :=
  [("and", .integer 1), ("a?\"b", .null), ("OR", .list [.text "x"])]

/-- Such attributes are told from connectives and placeholders. -/
theorem named_spelled_agree_oddPairs :
    ∃ named textual, (ofPairs oddPairs).condition = .ok named
      ∧ (spelled oddPairs).condition = .ok textual ∧ named.leafList = textual.leafList := by
  have hnames : ∀ pair ∈ oddPairs, Word pair.1.toList ∧ pair.1 ≠ "?" := by decide
  have hpairs : oddPairs ≠ [] := List.cons_ne_nil _ _
  rcases named_spelled_agree hpairs hnames with
    ⟨fault, hfault, -⟩ | ⟨named, textual, hnamed, htextual, -, -, -, -, hlist, -⟩
  · rw [condition_ofPairs hpairs] at hfault
    cases hfault
  · exact ⟨named, textual, hnamed, htextual, hlist⟩

end Clause

end VectorQuery
