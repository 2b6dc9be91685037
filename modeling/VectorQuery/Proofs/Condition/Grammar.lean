import Mathlib
import VectorQuery.Proofs.Condition.Connectives
import VectorQuery.Proofs.Condition.Vocabulary

/-!
# The grammar of clauses

What a clause may say, and the condition that it says.  The code searches a text for its first
connective again and again; the grammar reads the words of the text from left to right.

* `Leaf`, `NamedLeaf` — an attribute, a symbol and a value with the condition they make, and a named
  pair with its own;
* `Chain` — words `attribute symbol ?` with connectives between, the values, and the right-nested
  tree;
* `Condition.Conjoined`, `Condition.Together` — leaves joined one after another, and beside them what the text says;
* `Spells` — a clause with its condition;
* `splitWords_link`, `splitWords_last` — where the first connective of a chain is;
* `textual_eq_ok_iff` — the search finds exactly the chains;
* `condition_eq_ok_iff` — **a clause has a condition iff it is spelt by the grammar, and it has that
  one**.
-/

namespace VectorQuery

open Text Outcome

namespace Condition

/-! ### Trees of leaves -/

/-- Conditions joined one after another by conjunctions, each to the right of those before it. -/
inductive Conjoined : List Condition → Condition → Prop
  | single (leaf : Condition) : Conjoined [leaf] leaf
  | snoc {leaves : List Condition} {tree : Condition} (h : Conjoined leaves tree) (leaf : Condition) :
      Conjoined (leaves ++ [leaf]) (.join .and tree leaf)

/-- The named leaves and what the text says: the one that there is, or a conjunction with the text to
the right. -/
inductive Together : List Condition → Option Condition → Condition → Prop
  | named {leaves : List Condition} {tree : Condition} (h : Conjoined leaves tree) :
      Together leaves none tree
  | textual (tree : Condition) : Together [] (some tree) tree
  | both {leaves : List Condition} {left right : Condition} (h : Conjoined leaves left) :
      Together leaves (some right) (.join .and left right)

theorem all?_eq_none_iff {cs : List Condition} : all? cs = none ↔ cs = [] := by
  cases cs <;> simp [all?]

/-- One more condition. -/
theorem both?_all? (cs : List Condition) (c : Condition) :
    both? (all? cs) (some c) = all? (cs ++ [c]) := by
  cases cs with
  | nil => rfl
  | cons first others =>
    rw [List.cons_append, all?, all?, List.foldl_append]
    rfl

theorem all?_eq_some_iff {leaves : List Condition} {tree : Condition} :
    all? leaves = some tree ↔ Conjoined leaves tree := by
  constructor
  · intro h
    induction leaves using List.reverseRecOn generalizing tree with
    | nil => cases h
    | append_singleton leaves leaf ih =>
      rw [← both?_all?] at h
      cases hleaves : all? leaves with
      | none =>
        obtain rfl := all?_eq_none_iff.1 hleaves
        cases h
        exact .single leaf
      | some left =>
        rw [hleaves] at h
        cases h
        exact .snoc (ih hleaves) leaf
  · intro h
    induction h with
    | single leaf => rfl
    | snoc _ leaf ih =>
      rw [← both?_all?, ih]
      rfl

theorem together_iff {leaves : List Condition} {textual? : Option Condition} {c : Condition} :
    both? (all? leaves) textual? = some c ↔ Together leaves textual? c := by
  constructor
  · intro h
    cases hleaves : all? leaves with
    | none =>
      obtain rfl := all?_eq_none_iff.1 hleaves
      cases h
      exact .textual c
    | some left =>
      have hconjoined := all?_eq_some_iff.1 hleaves
      rw [hleaves] at h
      cases textual? with
      | none =>
        cases h
        exact .named hconjoined
      | some right =>
        cases h
        exact .both hconjoined
  · intro h
    cases h with
    | named h =>
      rw [all?_eq_some_iff.2 h]
      rfl
    | textual => rfl
    | both h =>
      rw [all?_eq_some_iff.2 h]
      rfl

end Condition

namespace Clause

/-! ### Leaves -/

/-- Where the backend keeps an attribute that is a point in time. -/
def timestampPath? : String → Option String
  | "created_at" => some "_creationTimeUnix"
  | "updated_at" => some "_lastUpdateTimeUnix"
  | _ => none

/-- The leaf that an attribute, a symbol and a value make. -/
inductive Leaf (name symbol : String) : Operand → Condition → Prop
  | null : Leaf name symbol .null (.nullCheck ((timestampPath? name).getD name))
  | timestamp {value : Operand} {path : String} {operator : Operator} {millis : ℤ}
      (hpath : timestampPath? name = some path) (hoperator : operator.HasSymbol symbol)
      (hmillis : value.HasMillis millis) :
      Leaf name symbol value (.comparison path operator (.text (toString millis)))
  | literal {value : Operand} {operator : Operator} {comparand : Comparand}
      (hpath : timestampPath? name = none) (hoperator : operator.HasSymbol symbol)
      (hcomparand : comparand.IsLiteral value) :
      Leaf name symbol value (.comparison name operator comparand)

theorem timestamp?_path (name : String) :
    (Condition.timestamp? name).map (·.path) = timestampPath? name := by
  by_cases hcreated : name = "created_at"
  · subst hcreated
    decide
  by_cases hupdated : name = "updated_at"
  · subst hupdated
    decide
  have hnone : timestampPath? name = none := by
    rw [timestampPath?.eq_def]
    split
    · exact absurd rfl hcreated
    · exact absurd rfl hupdated
    · rfl
  rw [hnone, Option.map_eq_none_iff, Condition.timestamp?, Option.filter_eq_none_iff]
  intro x hx
  have hname : x.logicalName = name := by simpa using List.find?_some hx
  cases x with
  | featureProjection => decide
  | createdAt => exact absurd hname.symm hcreated
  | updatedAt => exact absurd hname.symm hupdated

theorem isNull_iff (value : Operand) : value.isNull = true ↔ value = .null := by
  cases value <;> simp [Operand.isNull]

theorem ofSymbol_eq_ok_iff {symbol : String} {operator : Operator} :
    Operator.ofSymbol symbol = .ok operator ↔ operator.HasSymbol symbol := by
  rw [← Operator.ofSymbol?_eq_some_iff, Operator.ofSymbol]
  cases Operator.ofSymbol? symbol with
  | none => simp
  | some found => simp

theorem comparandFor_timestamp {name path : String} (h : timestampPath? name = some path)
    (value : Operand) :
    Condition.comparandFor name value
      = value.epochMillis.map fun millis => .text (Numeral.ofInt millis) := by
  have hsome : (Condition.timestamp? name).isSome = true := by
    rw [← Option.isSome_map, timestamp?_path, h]
    rfl
  rw [Condition.comparandFor, if_pos hsome]

theorem comparandFor_other {name : String} (h : timestampPath? name = none) (value : Operand) :
    Condition.comparandFor name value = Comparand.ofOperand value := by
  have hnone : ¬ (Condition.timestamp? name).isSome = true := by
    rw [← Option.isSome_map, timestamp?_path, h]
    exact Bool.false_ne_true
  rw [Condition.comparandFor, if_neg hnone]

theorem leaf_eq_ok_iff {name symbol : String} {value : Operand} {c : Condition} :
    Condition.leaf name symbol value = .ok c ↔ Leaf name symbol value c := by
  have hpathOf : Condition.pathOf name = (timestampPath? name).getD name := by
    rw [Condition.pathOf, timestamp?_path]
  rw [Condition.leaf, hpathOf]
  by_cases hnull : value.isNull = true
  · rw [if_pos hnull]
    obtain rfl := (isNull_iff value).1 hnull
    constructor
    · intro h
      cases h
      exact .null
    · intro h
      cases h with
      | null => rfl
      | timestamp _ _ hmillis => cases hmillis
      | literal _ _ hcomparand => cases hcomparand
  rw [if_neg hnull, bind_eq_ok_iff]
  constructor
  · intro h
    obtain ⟨operator, hoperator, hrest⟩ := h
    have hsymbol := ofSymbol_eq_ok_iff.1 hoperator
    obtain ⟨comparand, hcomparand, hc⟩ := bind_eq_ok_iff.1 hrest
    cases hc
    cases hpath : timestampPath? name with
    | some path =>
      rw [comparandFor_timestamp hpath] at hcomparand
      obtain ⟨millis, hmillis, rfl⟩ := map_eq_ok_iff.1 hcomparand
      rw [Numeral.ofInt_eq_toString]
      exact .timestamp hpath hsymbol (Operand.epochMillis_eq_ok_iff.1 hmillis)
    | none =>
      rw [comparandFor_other hpath] at hcomparand
      exact .literal hpath hsymbol (Comparand.ofOperand_eq_ok_iff.1 hcomparand)
  · intro h
    cases h with
    | null => exact absurd rfl hnull
    | @timestamp _ _ _ millis hpath hoperator hmillis =>
      refine ⟨_, ofSymbol_eq_ok_iff.2 hoperator,
        bind_eq_ok_iff.2 ⟨.text (toString millis), ?_, ?_⟩⟩
      · rw [comparandFor_timestamp hpath, ← Numeral.ofInt_eq_toString]
        exact map_eq_ok_iff.2 ⟨_, Operand.epochMillis_eq_ok_iff.2 hmillis, rfl⟩
      · rw [hpath]
        rfl
    | @literal _ _ comparand hpath hoperator hcomparand =>
      refine ⟨_, ofSymbol_eq_ok_iff.2 hoperator, bind_eq_ok_iff.2 ⟨comparand, ?_, ?_⟩⟩
      · rw [comparandFor_other hpath]
        exact Comparand.ofOperand_eq_ok_iff.2 hcomparand
      · rw [hpath]
        rfl

/-- The leaf of a named pair: a list asks for any of its items, any other value for equality. -/
inductive NamedLeaf : String × Operand → Condition → Prop
  | anyOf {name : String} {items : List Operand} {leaf : Condition}
      (h : Leaf name "CONTAINS_ANY" (.list items) leaf) : NamedLeaf (name, .list items) leaf
  | equal {name : String} {value : Operand} {leaf : Condition} (hvalue : ∀ items, value ≠ .list items)
      (h : Leaf name "=" value leaf) : NamedLeaf (name, value) leaf

theorem namedLeaf_eq_ok_iff {pair : String × Operand} {leaf : Condition} :
    namedLeaf pair = .ok leaf ↔ NamedLeaf pair leaf := by
  obtain ⟨name, value⟩ := pair
  rw [namedLeaf, leaf_eq_ok_iff]
  cases value with
  | list items =>
    constructor
    · exact .anyOf
    · intro h
      cases h with
      | anyOf h => exact h
      | equal hvalue => exact absurd rfl (hvalue items)
  | _ =>
    constructor
    · exact .equal nofun
    · intro h
      cases h with
      | equal _ h => exact h

theorem NamedLeaf.leaf {pair : String × Operand} {leaf : Condition} (h : NamedLeaf pair leaf) :
    ∃ symbol, Leaf pair.1 symbol pair.2 leaf := by
  cases h with
  | anyOf h => exact ⟨_, h⟩
  | equal _ h => exact ⟨_, h⟩

/-- The words of a leaf in a text, and the value that it takes. -/
theorem textLeaf_eq_ok_iff {ws : List String} {values rest : List Operand} {c : Condition} :
    textLeaf ws values = .ok (c, rest)
      ↔ ∃ name symbol value,
          ws = [name, symbol, placeholder] ∧ values = value :: rest ∧ Leaf name symbol value c := by
  constructor
  · intro h
    rw [textLeaf.eq_def] at h
    split at h
    · rename_i name symbol mark
      split at h
      · rename_i hmark
        split at h
        · rename_i value values
          obtain ⟨leaf, hleaf, hsame⟩ := map_eq_ok_iff.1 h
          cases hsame
          exact ⟨name, symbol, value, by rw [hmark], rfl, leaf_eq_ok_iff.1 hleaf⟩
        · cases h
      · cases h
    · cases h
  · intro h
    obtain ⟨name, symbol, value, rfl, rfl, hleaf⟩ := h
    rw [textLeaf, if_pos rfl]
    exact map_eq_ok_iff.2 ⟨c, leaf_eq_ok_iff.2 hleaf, rfl⟩

/-! ### Chains -/

/-- A word that is no connective. -/
def Free (word : String) : Prop := ∀ connective : Connective, ¬ connective.IsWord word

theorem free_iff {word : String} : Free word ↔ Connective.ofWord? word = none :=
  Connective.ofWord?_eq_none_iff.symm

instance (word : String) : Decidable (Free word) := decidable_of_iff _ free_iff.symm

/-- The words `attribute symbol ?` of leaves with connectives between them, the values of the leaves
and the tree, nested to the right.  Attributes and symbols satisfy a condition, and no symbol is a
connective. -/
inductive Chain (plain : String → Prop) : List String → List Operand → Condition → Prop
  | last {name symbol : String} {value : Operand} {leaf : Condition}
      (hname : plain name) (hsymbol : plain symbol) (hfree : Free symbol)
      (hleaf : Leaf name symbol value leaf) : Chain plain [name, symbol, "?"] [value] leaf
  | link {name symbol word : String} {words : List String} {value : Operand} {values : List Operand}
      {leaf right : Condition} {connective : Connective} (hname : plain name) (hsymbol : plain symbol)
      (hfree : Free symbol) (hleaf : Leaf name symbol value leaf) (hword : connective.IsWord word)
      (hright : Chain plain words values right) :
      Chain plain (name :: symbol :: "?" :: word :: words) (value :: values)
        (.join connective leaf right)

variable {plain : String → Prop} {ws : List String} {values rest : List Operand} {c : Condition}

theorem Chain.words_ne_nil (h : Chain plain ws values c) : ws ≠ [] := by
  cases h <;> exact List.cons_ne_nil _ _

theorem ofWord?_placeholder : Connective.ofWord? placeholder = none := by decide

theorem ne_placeholder {word : String} {connective : Connective}
    (h : Connective.ofWord? word = some connective) :
    (word == placeholder) = false := by
  rw [beq_eq_false_iff_ne]
  intro heq
  rw [heq, ofWord?_placeholder] at h
  cases h

theorem Chain.mono {other : String → Prop} (h : Chain plain ws values c)
    (himp : ∀ word, plain word → other word) :
    Chain other ws values c := by
  induction h with
  | last hname hsymbol hfree hleaf => exact .last (himp _ hname) (himp _ hsymbol) hfree hleaf
  | link hname hsymbol hfree hleaf hword _ ih =>
      exact .link (himp _ hname) (himp _ hsymbol) hfree hleaf hword ih

theorem isWord_ne_mark {word : String} {connective : Connective} (h : connective.IsWord word) :
    (word == "?") = false :=
  ne_placeholder (Connective.ofWord?_eq_some_iff.2 h)

/-- There is at least one placeholder for each value. -/
theorem Chain.length_le_count (h : Chain plain ws values c) : values.length ≤ ws.count "?" := by
  induction h with
  | last =>
      simp only [List.count_cons, List.count_nil, List.length_cons, List.length_nil,
        beq_self_eq_true, if_true]
      omega
  | link _ _ _ _ _ _ ih =>
      simp only [List.count_cons, List.length_cons, beq_self_eq_true, if_true]
      omega

/-- If there is no other placeholder, attributes and symbols are none. -/
theorem Chain.of_count_eq (h : Chain plain ws values c) (hcount : ws.count "?" = values.length) :
    Chain (· ≠ "?") ws values c := by
  induction h with
  | @last name symbol value leaf _ _ hfree hleaf =>
    simp only [List.count_cons, List.count_nil, List.length_cons,
      List.length_nil, beq_self_eq_true, if_true, beq_iff_eq] at hcount
    have hname : name ≠ "?" := fun h => by rw [if_pos h] at hcount; omega
    have hsymbol : symbol ≠ "?" := fun h => by rw [if_pos h] at hcount; omega
    exact .last hname hsymbol hfree hleaf
  | @link name symbol word words value values leaf right connective _ _ hfree hleaf hword hright ih =>
    have hle := hright.length_le_count
    simp only [List.count_cons, List.length_cons, beq_self_eq_true, if_true, beq_iff_eq,
      isWord_ne_mark hword] at hcount
    have hname : name ≠ "?" := fun h => by rw [if_pos h] at hcount; omega
    have hsymbol : symbol ≠ "?" := fun h => by rw [if_pos h] at hcount; omega
    rw [if_neg hname, if_neg hsymbol, if_neg Bool.false_ne_true] at hcount
    exact .link hname hsymbol hfree hleaf hword (ih (by omega))

theorem Chain.count_eq (h : Chain (· ≠ "?") ws values c) : ws.count "?" = values.length := by
  induction h with
  | last hname hsymbol =>
    simp only [List.count_cons, List.count_nil, List.length_cons,
      List.length_nil, beq_self_eq_true, if_true, beq_eq_false_iff_ne.2 hname,
      beq_eq_false_iff_ne.2 hsymbol, Bool.false_eq_true, if_false]
  | link hname hsymbol _ _ hword _ ih =>
    simp only [List.count_cons, List.length_cons, beq_self_eq_true, if_true,
      beq_eq_false_iff_ne.2 hname, beq_eq_false_iff_ne.2 hsymbol, isWord_ne_mark hword,
      Bool.false_eq_true, if_false, ih, Nat.add_zero]

/-! ### Where the first connective of a chain is -/

/-- If there is a blank before the first word, that word is no connective. -/
def FreeStart (openStart : Bool) (ws : List String) : Prop :=
  openStart = true → ∀ word ∈ ws.head?, Connective.ofWord? word = none

theorem freeStart_of_not_startsBlank {openStart : Bool} (h : openStart = false) (ws : List String) :
    FreeStart openStart ws := by
  intro hopen
  rw [h] at hopen
  cases hopen

/-- The words of a leaf have no connective among them. -/
theorem splitWords_last (openStart openEnd : Bool) (name symbol : String) :
    splitWords openStart openEnd [name, symbol, placeholder] = none
      ↔ FreeStart openStart [name, symbol, placeholder] ∧ Connective.ofWord? symbol = none := by
  cases openStart <;> cases hname : Connective.ofWord? name <;>
    cases hsymbol : Connective.ofWord? symbol <;>
    simp [splitWords, FreeStart, hname, hsymbol, ofWord?_placeholder]

/-- The first connective of a longer chain is the one after its first leaf. -/
theorem splitWords_link {openStart : Bool} (openEnd : Bool) {name symbol word : String}
    {words : List String}
    {connective : Connective} (hwords : words ≠ [])
    (hstart : FreeStart openStart (name :: symbol :: placeholder :: word :: words))
    (hsymbol : Connective.ofWord? symbol = none) (hword : Connective.ofWord? word = some connective) :
    splitWords openStart openEnd (name :: symbol :: placeholder :: word :: words)
      = some ([name, symbol, placeholder], connective, words) := by
  have hname : openStart = true → Connective.ofWord? name = none := fun h => hstart h name rfl
  cases openStart <;> simp [splitWords, hname, hsymbol, hword, hwords, ofWord?_placeholder]

/-- A word that the cut leaves on the left is no connective between blanks. -/
theorem splitWords_cons_eq_some {openStart openEnd : Bool} {w : String}
    {ws left right : List String} {connective : Connective}
    (h : splitWords openStart openEnd ws = some (w :: left, connective, right)) :
    ∃ more, ws = w :: more ∧ (openStart = true → more ≠ [] → Connective.ofWord? w = none)
      ∧ splitWords true openEnd more = some (left, connective, right) := by
  cases ws with
  | nil => cases h
  | cons w' more =>
    rw [splitWords] at h
    split at h
    · cases h
    · rename_i hnone
      obtain ⟨⟨left', connective', right'⟩, hmore, hsame⟩ := Option.map_eq_some_iff.1 h
      cases hsame
      refine ⟨more, rfl, ?_, hmore⟩
      intro hopen hne
      rw [if_pos (by simp [hopen, hne])] at hnone
      exact hnone

/-- What is cut off as a leaf is the beginning of a chain. -/
theorem splitWords_eq_some {openStart openEnd : Bool} {name symbol : String}
    {ws right : List String} {connective : Connective}
    (h : splitWords openStart openEnd ws = some ([name, symbol, placeholder], connective, right)) :
    ∃ word, ws = name :: symbol :: placeholder :: word :: right
      ∧ Connective.ofWord? word = some connective
      ∧ FreeStart openStart ws ∧ Connective.ofWord? symbol = none := by
  obtain ⟨ws₁, rfl, hname, h⟩ := splitWords_cons_eq_some h
  obtain ⟨ws₂, rfl, hsymbol, h⟩ := splitWords_cons_eq_some h
  obtain ⟨ws₃, rfl, -, h⟩ := splitWords_cons_eq_some h
  cases ws₃ with
  | nil => cases h
  | cons word more =>
    rw [splitWords] at h
    split at h
    · rename_i found hfound
      cases h
      refine ⟨word, rfl, ?_, ?_, hsymbol rfl (List.cons_ne_nil _ _)⟩
      · split at hfound
        · exact hfound
        · cases hfound
      · intro hopen head hhead
        cases hhead
        exact hname hopen (List.cons_ne_nil _ _)
    · obtain ⟨_, _, hsame⟩ := Option.map_eq_some_iff.1 h
      cases hsame

/-! ### Texts -/

theorem textual_eq_ok_none_iff {cs : List Char} :
    textual cs values = .ok (none, rest) ↔ Gap cs ∧ rest = values := by
  rw [textual, ← trim_isEmpty_iff]
  by_cases hblank : (trim cs).isEmpty = true
  · rw [if_pos hblank]
    constructor
    · intro h
      cases h
      exact ⟨hblank, rfl⟩
    · intro h
      obtain ⟨-, rfl⟩ := h
      rfl
  · rw [if_neg hblank]
    refine ⟨fun h => ?_, fun h => absurd h.1 hblank⟩
    split at h
    · obtain ⟨_, -, h⟩ := bind_eq_ok_iff.1 h
      cases h
    · obtain ⟨_, -, h⟩ := bind_eq_ok_iff.1 h
      obtain ⟨_, -, h⟩ := bind_eq_ok_iff.1 h
      split at h
      · cases h
      · cases h

/-- **The search finds exactly the chains.** -/
theorem textual_eq_ok_iff {cs : List Char} :
    textual cs values = .ok (some c, rest)
      ↔ ∃ taken, values = taken ++ rest ∧ Chain (fun _ => True) (words cs) taken c
        ∧ FreeStart (startsBlank cs) (words cs) := by
  induction hlength : cs.length using Nat.strong_induction_on generalizing cs values c with
  | _ n ih =>
    have hcut := splitWords_words cs
    rw [textual]
    by_cases hblank : (trim cs).isEmpty = true
    · have hwords := words_of_gap ((trim_isEmpty_iff cs).1 hblank)
      rw [if_pos hblank]
      constructor
      · intro h
        cases h
      · intro h
        obtain ⟨taken, -, hchain, -⟩ := h
        exact absurd hwords hchain.words_ne_nil
    rw [if_neg hblank]
    split
    · rename_i hsplit
      rw [hsplit] at hcut
      constructor
      · intro h
        obtain ⟨⟨leaf, left⟩, htaken, hsame⟩ := bind_eq_ok_iff.1 h
        cases hsame
        obtain ⟨name, symbol, value, hwords, rfl, hleaf⟩ := textLeaf_eq_ok_iff.1 htaken
        rw [hwords] at hcut
        obtain ⟨hstart, hfree⟩ := (splitWords_last _ _ name symbol).1 hcut.symm
        rw [hwords]
        exact ⟨[value], rfl, .last trivial trivial (free_iff.2 hfree) hleaf, hstart⟩
      · intro h
        obtain ⟨taken, rfl, hchain, hstart⟩ := h
        generalize words cs = ws at *
        cases hchain with
        | @last name symbol value leaf _ _ _ hleaf =>
          exact bind_eq_ok_iff.2 ⟨_, textLeaf_eq_ok_iff.2 ⟨name, symbol, value, rfl, rfl, hleaf⟩, rfl⟩
        | link _ _ hfree _ hword hright =>
          cases hcut.trans (splitWords_link _ hright.words_ne_nil hstart (free_iff.1 hfree)
            (Connective.ofWord?_eq_some_iff.2 hword))
    · rename_i left connective right hsplit
      have hfreeRight : FreeStart (startsBlank right) (words right) :=
        freeStart_of_not_startsBlank (startsBlank_splitConnective? hsplit) _
      rw [hsplit] at hcut
      replace hcut : some (words left, connective, words right)
          = splitWords (startsBlank cs) (endsBlank cs) (words cs) := hcut
      have ih := fun values c =>
        @ih right.length (hlength ▸ splitConnective?_length hsplit) values c right rfl
      constructor
      · intro h
        obtain ⟨⟨leaf, more⟩, htaken, h⟩ := bind_eq_ok_iff.1 h
        obtain ⟨⟨found, more'⟩, hfound, h⟩ := bind_eq_ok_iff.1 h
        cases found with
        | none => cases h
        | some tree =>
          cases h
          obtain ⟨name, symbol, value, hwords, rfl, hleaf⟩ := textLeaf_eq_ok_iff.1 htaken
          obtain ⟨taken, rfl, hchain, -⟩ := (ih more tree).1 hfound
          rw [hwords] at hcut
          obtain ⟨word, hall, hword, hstart, hfree⟩ := splitWords_eq_some hcut.symm
          rw [hall] at hstart ⊢
          exact ⟨value :: taken, rfl, .link trivial trivial (free_iff.2 hfree) hleaf
            (Connective.ofWord?_eq_some_iff.1 hword) hchain, hstart⟩
      · intro h
        obtain ⟨taken, rfl, hchain, hstart⟩ := h
        generalize words cs = ws at *
        cases hchain with
        | last _ _ hfree _ =>
          cases hcut.trans ((splitWords_last _ _ _ _).2 ⟨hstart, free_iff.1 hfree⟩)
        | @link name symbol word ws value taken leaf tree connective' _ _ hfree hleaf hword hright =>
          have hlink := splitWords_link (endsBlank cs) hright.words_ne_nil hstart (free_iff.1 hfree)
            (Connective.ofWord?_eq_some_iff.2 hword)
          obtain ⟨hleft, rfl, rfl⟩ : words left = _ ∧ connective = connective' ∧ words right = ws := by
            simpa using hcut.trans hlink
          refine bind_eq_ok_iff.2 ⟨_, textLeaf_eq_ok_iff.2 ⟨name, symbol, value, hleft, rfl, hleaf⟩,
            bind_eq_ok_iff.2 ⟨_, (ih _ tree).2 ⟨taken, rfl, hright, hfreeRight⟩, rfl⟩⟩

/-! ### Clauses -/

/-- What the text of a clause and its values say: nothing, or the tree of the chain that its words
are. -/
inductive Spelt (text : String) (values : List Operand) : Option Condition → Prop
  | blank (htext : Gap text.toList) (hvalues : values = []) : Spelt text values none
  | chain {ws : List String} {c : Condition} (hwords : Parted text.toList (ws.map String.toList))
      (hchain : Chain (· ≠ "?") ws values c)
      (hstart : ∀ c ∈ text.toList.head?, c ∈ whiteSpace → ∀ name ∈ ws.head?, Free name) :
      Spelt text values (some c)

/-- A clause with its condition: it binds something, each of its named pairs has a leaf, its text says
nothing or the tree of a chain, and the condition is all of these together. -/
structure Spells (clause : Clause) (c : Condition) : Prop where
  bound : clause.values ≠ [] ∨ clause.named ≠ []
  tree : ∃ leaves textual?, List.Forall₂ NamedLeaf clause.named leaves
    ∧ Spelt clause.text clause.values textual? ∧ Condition.Together leaves textual? c

theorem words_eq_iff {cs : List Char} {ws : List String} :
    words cs = ws ↔ Parted cs (ws.map String.toList) := by
  rw [← Text.words_eq_iff, words]
  constructor
  · rintro rfl
    simp
  · intro h
    rw [h]
    simp

/-- The count of placeholders and the search together find what the text says. -/
theorem spelt_iff {text : String} {textual? : Option Condition} :
    (words text.toList).count placeholder = values.length
        ∧ textual text.toList values = .ok (textual?, [])
      ↔ Spelt text values textual? := by
  have hfree : ∀ {ws : List String}, FreeStart (startsBlank text.toList) ws
      ↔ ∀ c ∈ text.toList.head?, c ∈ whiteSpace → ∀ name ∈ ws.head?, Free name := by
    intro ws
    simp only [FreeStart, free_iff, startsBlank_iff, forall_exists_index, and_imp]
  constructor
  · intro h
    obtain ⟨hcount, htextual⟩ := h
    cases textual? with
    | none =>
      obtain ⟨hgap, hvalues⟩ := textual_eq_ok_none_iff.1 htextual
      exact .blank hgap hvalues.symm
    | some c =>
      obtain ⟨taken, htaken, hchain, hstart⟩ := textual_eq_ok_iff.1 htextual
      rw [List.append_nil] at htaken
      subst htaken
      exact .chain (words_eq_iff.1 rfl) (hchain.of_count_eq hcount) (hfree.1 hstart)
  · intro h
    cases h with
    | blank htext hvalues =>
      subst hvalues
      rw [words_of_gap htext]
      exact ⟨rfl, textual_eq_ok_none_iff.2 ⟨htext, rfl⟩⟩
    | chain hwords hchain hstart =>
      obtain rfl := words_eq_iff.2 hwords
      refine ⟨hchain.count_eq, textual_eq_ok_iff.2 ⟨values, (List.append_nil values).symm, ?_,
        hfree.2 hstart⟩⟩
      exact hchain.mono fun _ _ => trivial

theorem named?_eq_ok_iff {pairs : List (String × Operand)} {named : Option Condition} :
    named? pairs = .ok named
      ↔ ∃ leaves, List.Forall₂ NamedLeaf pairs leaves ∧ Condition.all? leaves = named := by
  rw [named?, map_eq_ok_iff]
  simp only [mapM_eq_ok_iff, namedLeaf_eq_ok_iff]

/-- What a condition is made of: the leaves of the named pairs, and what the text says. -/
theorem exists_parts {clause : Clause} (h : clause.condition = .ok c) :
    (clause.values ≠ [] ∨ clause.named ≠ [])
    ∧ ∃ leaves textual?, List.Forall₂ NamedLeaf clause.named leaves
      ∧ Spelt clause.text clause.values textual?
      ∧ Condition.both? (Condition.all? leaves) textual? = some c := by
  rw [condition] at h
  split at h
  · cases h
  rename_i hbound
  dsimp only at h
  split at h
  · cases h
  rename_i hcount
  obtain ⟨named, hnamed, h⟩ := bind_eq_ok_iff.1 h
  obtain ⟨⟨textual?, rest⟩, htextual, h⟩ := bind_eq_ok_iff.1 h
  obtain ⟨leaves, hleaves, rfl⟩ := named?_eq_ok_iff.1 hnamed
  cases rest with
  | cons value rest => cases h
  | nil =>
    refine ⟨by simpa [or_iff_not_imp_left] using hbound, leaves, textual?, hleaves,
      spelt_iff.1 ⟨not_not.1 hcount, htextual⟩, ?_⟩
    cases hboth : Condition.both? (Condition.all? leaves) textual? with
    | none =>
      simp only [hboth] at h
      cases h
    | some found =>
      simp only [hboth] at h
      cases h
      rfl

/-- **A clause has a condition iff it is spelt by the grammar**, and then it has the condition that
it spells. -/
theorem condition_eq_ok_iff (clause : Clause) (c : Condition) :
    clause.condition = .ok c ↔ clause.Spells c := by
  constructor
  · intro h
    obtain ⟨hbound, leaves, textual?, hleaves, hspelt, htree⟩ := exists_parts h
    exact ⟨hbound, leaves, textual?, hleaves, hspelt, Condition.together_iff.1 htree⟩
  · intro h
    obtain ⟨hbound, leaves, textual?, hleaves, hspelt, htree⟩ := h
    obtain ⟨hcount, htextual⟩ := spelt_iff.2 hspelt
    have hnamed := named?_eq_ok_iff.2 ⟨leaves, hleaves, rfl⟩
    have hsome : ¬ (clause.values.isEmpty && clause.named.isEmpty) = true := by
      simpa [or_iff_not_imp_left] using hbound
    rw [condition, if_neg hsome, if_neg (not_not.2 hcount)]
    show (named? clause.named >>= _) = _
    refine bind_eq_ok_iff.2 ⟨_, hnamed, bind_eq_ok_iff.2 ⟨_, htextual, ?_⟩⟩
    simp only [Condition.together_iff.2 htree]
    rfl

/-- Connectives in letters of either case, one of them for an attribute, beside two named pairs. -/
def mixedCase : Clause where
  text := "\tage >= ? oR and = ? \n AnD created_at < ? "
  values := [.integer 3, .null, .integer 5]
  named := [("tags", .list [.text "x"]), ("title", .text "y")]

/-- The named leaves come first, and the text joins from the right.  After a blank, a connective is no
attribute. -/
theorem condition_eq_ok_iff_mixedCase :
    mixedCase.condition = .ok
      (.join .and
        (.join .and (.comparison "tags" .containsAny (.texts ["x"]))
          (.comparison "title" .equal (.text "y")))
        (.join .or (.comparison "age" .greaterThanEqual (.integer 3))
          (.join .and (.nullCheck "and")
            (.comparison "_creationTimeUnix" .lessThan (.text "5")))))
    ∧ ∀ c, Clause.condition { text := " and = ?", values := [.null] } ≠ .ok c := by
  constructor
  · have hwords : Parted mixedCase.text.toList
        (["age", ">=", "?", "oR", "and", "=", "?", "AnD", "created_at", "<", "?"].map String.toList) :=
      words_eq_iff.1 (by decide)
    have hor : Connective.or.IsWord "oR" := Connective.ofWord?_eq_some_iff.1 (by decide)
    have hand : Connective.and.IsWord "AnD" := Connective.ofWord?_eq_some_iff.1 (by decide)
    have htime : timestampPath? "created_at" = some "_creationTimeUnix" := by decide
    have hchain : Chain (· ≠ "?")
        ["age", ">=", "?", "oR", "and", "=", "?", "AnD", "created_at", "<", "?"] mixedCase.values _ :=
      .link (by decide) (by decide) (by decide)
        (.literal (by decide) .greaterThanEqual (.integer 3)) hor
        (.link (by decide) (by decide) (by decide) .null hand
          (.last (by decide) (by decide) (by decide)
            (.timestamp htime .lessThan (.integer 5))))
    have hstart : Free "age" := by decide
    have hnamed : List.Forall₂ NamedLeaf mixedCase.named _ :=
      .cons (.anyOf (.literal (by decide) .containsAny (.texts ["x"])))
        (.cons (.equal nofun (.literal (by decide) .equal (.text "y"))) .nil)
    exact (condition_eq_ok_iff _ _).2 ⟨Or.inl (List.cons_ne_nil _ _), _, _, hnamed,
      .chain hwords hchain (fun _ _ _ name hname => by cases hname; exact hstart),
      .both (.snoc (.single _) _)⟩
  · intro c h
    obtain ⟨-, leaves, textual?, hleaves, hspelt, htree⟩ := (condition_eq_ok_iff _ c).1 h
    cases hspelt with
    | blank _ hvalues => cases hvalues
    | chain hwords _ hstart =>
      obtain rfl := (words_eq_iff.2 hwords).symm
      have hfree : Free "and" := hstart ' ' (by decide) (by decide) "and" (by decide)
      exact hfree .and (Connective.ofWord?_eq_some_iff.1 (by decide))

end Clause

end VectorQuery
