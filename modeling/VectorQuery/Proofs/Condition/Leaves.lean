import Mathlib
import VectorQuery.Proofs.Condition.Grammar

/-!
# The leaves of a condition

A condition is made by joining conditions, so its leaves, from left to right, are those of the joined
ones.  A clause has a leaf for each value and for each named pair.

* `Condition.leafList` — the leaves from left to right;
* `Condition.Conjunctive` — all joins are conjunctions;
* `Condition.leavesOf` — the leaves of a condition, if there is one;
* `Condition.leavesOf_all?`, `Condition.conjunctive_all?` — conditions joined from the left;
* `Clause.leaves_condition` — **a clause has as many leaves as it has values and named pairs**;
* `Clause.condition_eq` — the condition of a clause whose text takes all values;
* `Clause.ofPairs` — a clause of named pairs alone;
* `Clause.toOption_ofPairs` — **it joins the leaves of its pairs from the left**.
-/

namespace VectorQuery

open Text Outcome

namespace Condition

/-! ### Trees -/

/-- The comparisons and null checks of a condition from left to right. -/
def leafList : Condition → List Condition
  | .join _ left right => left.leafList ++ right.leafList
  | leaf => [leaf]

/-- All joins of a condition are conjunctions. -/
def Conjunctive : Condition → Prop
  | .join connective left right => connective = .and ∧ left.Conjunctive ∧ right.Conjunctive
  | _ => True

theorem length_leafList (c : Condition) : c.leafList.length = c.leaves := by
  induction c with
  | comparison path operator comparand => rfl
  | nullCheck path => rfl
  | join connective left right ihleft ihright =>
    rw [leafList, List.length_append, ihleft, ihright, leaves]

/-! ### Conditions joined -/

/-- The leaves of a condition, if there is one. -/
def leavesOf (c? : Option Condition) : List Condition := c?.toList.flatMap leafList

theorem leavesOf_some (c : Condition) : leavesOf (some c) = c.leafList := List.flatMap_singleton ..

theorem length_leavesOf (c? : Option Condition) : (leavesOf c?).length = c?.elim 0 leaves := by
  cases c? with
  | none => rfl
  | some c => rw [leavesOf_some, length_leafList, Option.elim_some]

/-- The leaves of conditions joined from the left. -/
theorem leafList_foldl (c : Condition) (others : List Condition) :
    (others.foldl and c).leafList = c.leafList ++ others.flatMap leafList := by
  induction others generalizing c with
  | nil => exact (List.append_nil _).symm
  | cons other others ih =>
    rw [List.foldl_cons, ih, List.flatMap_cons, ← List.append_assoc]
    rfl

theorem conjunctive_foldl {c : Condition} {others : List Condition} (h : c.Conjunctive)
    (hothers : ∀ other ∈ others, other.Conjunctive) :
    (others.foldl and c).Conjunctive := by
  induction others generalizing c with
  | nil => exact h
  | cons other others ih =>
    rw [List.forall_mem_cons] at hothers
    exact ih ⟨rfl, h, hothers.1⟩ hothers.2

theorem leavesOf_all? (cs : List Condition) : leavesOf (all? cs) = cs.flatMap leafList := by
  cases cs with
  | nil => rfl
  | cons c others => rw [all?, leavesOf_some, leafList_foldl, List.flatMap_cons]

/-- The leaves of all conditions that there are. -/
theorem leavesOf_all?_filterMap {α : Type} (f : α → Option Condition) (xs : List α) :
    leavesOf (all? (xs.filterMap f)) = xs.flatMap fun x => leavesOf (f x) := by
  rw [leavesOf_all?, List.filterMap_eq_flatMap_toList, List.flatMap_assoc]
  rfl

theorem leavesOf_both? (left right : Option Condition) :
    leavesOf (both? left right) = leavesOf left ++ leavesOf right := by
  cases left <;> cases right <;> simp [both?, leavesOf, and, leafList]

theorem conjunctive_all? {cs : List Condition} (h : ∀ c ∈ cs, c.Conjunctive) :
    ∀ c ∈ all? cs, c.Conjunctive := by
  cases cs with
  | nil => nofun
  | cons c others =>
    rintro tree ⟨⟩
    rw [List.forall_mem_cons] at h
    exact conjunctive_foldl h.1 h.2

/-- One condition needs no join. -/
theorem all?_filterMap_singleton {α : Type} (f : α → Option Condition) (x : α) :
    all? ([x].filterMap f) = f x := by
  rw [List.filterMap_cons]
  cases f x <;> rfl

end Condition

namespace Clause

/-! ### The leaves of a clause -/

/-- The number of values and named pairs of a clause. -/
def size (clause : Clause) : ℕ := clause.values.length + clause.named.length

theorem Leaf.leafList {name symbol : String} {value : Operand} {c : Condition}
    (h : Leaf name symbol value c) : c.leafList = [c] := by
  cases h <;> rfl

theorem Leaf.conjunctive {name symbol : String} {value : Operand} {c : Condition}
    (h : Leaf name symbol value c) : c.Conjunctive := by
  cases h <;> trivial

/-- A chain has a leaf for each of its values. -/
theorem Chain.length_leafList {plain : String → Prop} {ws : List String} {values : List Operand}
    {c : Condition} (h : Chain plain ws values c) : c.leafList.length = values.length := by
  induction h with
  | last _ _ _ hleaf =>
    rw [hleaf.leafList]
    rfl
  | link _ _ _ hleaf _ _ ih =>
    rw [Condition.leafList, hleaf.leafList, List.length_append, ih, List.length_cons, Nat.add_comm]
    rfl

theorem Spelt.length_leavesOf {text : String} {values : List Operand} {textual? : Option Condition}
    (h : Spelt text values textual?) : (Condition.leavesOf textual?).length = values.length := by
  cases h with
  | blank _ hvalues =>
    rw [hvalues]
    rfl
  | chain _ hchain _ => rw [Condition.leavesOf_some, hchain.length_leafList]

/-- The leaves of named pairs are leaves. -/
theorem flatMap_leafList {pairs : List (String × Operand)} {leaves : List Condition}
    (h : List.Forall₂ NamedLeaf pairs leaves) :
    leaves.flatMap Condition.leafList = leaves ∧ ∀ leaf ∈ leaves, leaf.Conjunctive := by
  induction h with
  | nil => exact ⟨rfl, List.forall_mem_nil _⟩
  | cons hleaf _ ih =>
    obtain ⟨symbol, hleaf⟩ := hleaf.leaf
    rw [List.flatMap_cons, ih.1, hleaf.leafList, List.singleton_append]
    exact ⟨rfl, List.forall_mem_cons.2 ⟨hleaf.conjunctive, ih.2⟩⟩

/-- The leaves of a clause: those of its named pairs, then those of its text. -/
theorem exists_leafList {clause : Clause} {c : Condition} (h : clause.condition = .ok c) :
    ∃ leaves textual?,
      List.Forall₂ NamedLeaf clause.named leaves
      ∧ Spelt clause.text clause.values textual?
      ∧ c.leafList = leaves ++ Condition.leavesOf textual? := by
  obtain ⟨-, leaves, textual?, hleaves, hspelt, htree⟩ := exists_parts h
  have hboth := Condition.leavesOf_both? (Condition.all? leaves) textual?
  rw [htree, Condition.leavesOf_some, Condition.leavesOf_all?, (flatMap_leafList hleaves).1] at hboth
  exact ⟨leaves, textual?, hleaves, hspelt, hboth⟩

/-- **A clause has as many leaves as it has values and named pairs.** -/
theorem leaves_condition {clause : Clause} {c : Condition} (h : clause.condition = .ok c) :
    c.leaves = clause.size := by
  obtain ⟨leaves, textual?, hleaves, hspelt, hlist⟩ := exists_leafList h
  rw [← Condition.length_leafList, hlist, List.length_append, ← hleaves.length_eq,
    hspelt.length_leavesOf, size, Nat.add_comm]

/-- The leaves of several clauses, of which some have no condition. -/
theorem length_leavesOf_clauses (clauses : List Clause) :
    (Condition.leavesOf (Condition.all? (clauses.filterMap (·.condition.toOption)))).length
      = ((clauses.filter (·.condition.isOk)).map size).sum := by
  rw [Condition.leavesOf_all?_filterMap]
  induction clauses with
  | nil => rfl
  | cons clause clauses ih =>
    rw [List.flatMap_cons, List.length_append, ih, Condition.length_leavesOf]
    cases hclause : clause.condition with
    | error fault =>
      rw [List.filter_cons_of_neg (by rw [hclause]; exact Bool.false_ne_true)]
      exact Nat.zero_add _
    | ok c =>
      rw [List.filter_cons_of_pos (by rw [hclause]; rfl), List.map_cons, List.sum_cons,
        ← leaves_condition hclause]
      rfl

/-! ### Named pairs alone -/

/-- A clause of named pairs alone. -/
def ofPairs (pairs : List (String × Operand)) : Clause where
  named := pairs

/-- The condition that there is. -/
def given : Option Condition → Except Fault Condition
  | some c => .ok c
  | none => .error nothingBound

/-- If a clause has as many values as placeholders and its text takes all of them, its condition is
that of the named pairs and the text. -/
theorem condition_eq {clause : Clause} (hbound : clause.values ≠ [] ∨ clause.named ≠ [])
    (hcount : (words clause.text.toList).count placeholder = clause.values.length)
    {spelt : Except Fault (Option Condition)}
    (htextual : textual clause.text.toList clause.values = spelt.map fun c? => (c?, [])) :
    clause.condition
      = named? clause.named >>= fun named? => spelt >>= fun textual? =>
        given (Condition.both? named? textual?) := by
  have hsome : ¬ (clause.values.isEmpty && clause.named.isEmpty) = true := by
    simpa [or_iff_not_imp_left] using hbound
  rw [condition, if_neg hsome]
  dsimp only
  rw [if_neg (not_not.2 hcount), htextual]
  show (named? clause.named >>= _) = _
  cases named? clause.named with
  | error fault => rfl
  | ok named? =>
    cases spelt with
    | error fault => rfl
    | ok textual? =>
      show (match Condition.both? named? textual? with | some c => _ | none => _)
        = given (Condition.both? named? textual?)
      cases Condition.both? named? textual? <;> rfl

theorem condition_ofPairs {pairs : List (String × Operand)} (hpairs : pairs ≠ []) :
    (ofPairs pairs).condition = (pairs.mapM namedLeaf).map Condition.all? >>= given := by
  -- the text is empty: it has no placeholder, and leaves all values, of which there are none
  have hcount : (words "".toList).count placeholder = 0 := by decide
  have htextual : textual (ofPairs pairs).text.toList (ofPairs pairs).values
      = Except.map (fun c? => (c?, [])) (.ok none) :=
    textual_eq_ok_none_iff.2 ⟨List.forall_mem_nil _, rfl⟩
  rw [condition_eq (Or.inr hpairs) hcount htextual]
  show (named? pairs >>= fun named? => given (Condition.both? named? none)) = _
  rw [named?]
  congr 1
  funext named?
  cases named? <;> rfl

/-- The leaves of the named pairs that have one. -/
def namedLeaves (pairs : List (String × Operand)) : List Condition :=
  pairs.filterMap fun pair => (namedLeaf pair).toOption

section

variable {pairs : List (String × Operand)} (hok : ∀ pair ∈ pairs, (namedLeaf pair).isOk = true)

include hok

theorem mapM_namedLeaf : pairs.mapM namedLeaf = .ok (namedLeaves pairs) := mapM_of_isOk hok

theorem forall₂_namedLeaves :
    List.Forall₂ NamedLeaf pairs
      (namedLeaves pairs) :=
  (mapM_eq_ok_iff.1 (mapM_namedLeaf hok)).imp fun _ _ h => namedLeaf_eq_ok_iff.1 h

theorem namedLeaves_ne_nil (hpairs : pairs ≠ []) : namedLeaves pairs ≠ [] := by
  intro hnil
  have hleaves := forall₂_namedLeaves hok
  rw [hnil] at hleaves
  exact hpairs (List.forall₂_nil_right_iff.1 hleaves)

/-- **A clause of named pairs alone joins their leaves.** -/
theorem toOption_ofPairs (hpairs : pairs ≠ []) :
    (ofPairs pairs).condition.toOption = Condition.all? (namedLeaves pairs) := by
  rw [condition_ofPairs hpairs, mapM_namedLeaf hok]
  show (given (Condition.all? (namedLeaves pairs))).toOption = _
  cases Condition.all? (namedLeaves pairs) <;> rfl

/-- A clause of named pairs alone has their leaves, and joins them by conjunctions. -/
theorem leavesOf_ofPairs (hpairs : pairs ≠ []) :
    Condition.leavesOf (ofPairs pairs).condition.toOption = namedLeaves pairs
    ∧ ∀ c ∈ (ofPairs pairs).condition.toOption, c.Conjunctive := by
  obtain ⟨hflat, hconjunctive⟩ := flatMap_leafList (forall₂_namedLeaves hok)
  rw [toOption_ofPairs hok hpairs]
  refine ⟨?_, Condition.conjunctive_all? hconjunctive⟩
  rw [Condition.leavesOf_all?, hflat]

end

/-- A clause of one pair needs no join. -/
theorem toOption_ofPairs_singleton {pair : String × Operand} (hok : (namedLeaf pair).isOk = true) :
    (ofPairs [pair]).condition.toOption = (namedLeaf pair).toOption := by
  rw [toOption_ofPairs (List.forall_mem_singleton.2 hok) (List.cons_ne_nil pair []), namedLeaves,
    Condition.all?_filterMap_singleton]

/-- A pair may be a clause of its own iff it has a leaf. -/
theorem isOk_ofPairs_singleton {pair : String × Operand} :
    (ofPairs [pair]).condition.isOk = true ↔ (namedLeaf pair).isOk = true := by
  constructor
  · intro h
    cases hcondition : (ofPairs [pair]).condition with
    | error fault =>
      rw [hcondition] at h
      cases h
    | ok c =>
      obtain ⟨-, leaves, -, hleaves, -, -⟩ := exists_parts hcondition
      obtain ⟨leaf, -, hleaf, -, -⟩ := List.forall₂_cons_left_iff.1 hleaves
      rw [namedLeaf_eq_ok_iff.2 hleaf]
      rfl
  · intro h
    rwa [← isSome_toOption, toOption_ofPairs_singleton h, isSome_toOption]

end Clause

end VectorQuery
