import Mathlib
import VectorQuery.Proofs.Outcome
import VectorQuery.Sorting

/-!
# Which sort keys a call is given

A call that sorts gives a key for each of its attributes, the bare ones first, or none at all: it is
refused for the first thing that is wrong with it.

* `SortKey.Identifier` — the names that are attributes, and `SortKey.placeOf`, where they are found;
* `SortKey.keysOf` — the keys of a call;
* `SortKey.ofCall_eq_ok_iff` — a call gives its keys iff nothing is wrong with it;
* `SortKey.Refused` — a call and the first thing that is wrong with it;
* `SortKey.ofCall_eq_error_iff` — **a call is refused for this**.
-/

namespace VectorQuery

open Outcome

/-! ### Directions -/

namespace Direction

/-- A name of a direction. -/
def IsName (name : String) : Prop := name = "asc" ∨ name = "desc"

/-- The direction that a name means. -/
def named (name : String) : Direction := if name = "asc" then .ascending else .descending

theorem ofName_eq_ok_iff {name : String} {direction : Direction} :
    ofName name = .ok direction ↔ IsName name ∧ direction = named name := by
  rw [ofName, IsName, named]
  by_cases hasc : name = "asc"
  · simp [hasc, eq_comm]
  · by_cases hdesc : name = "desc"
    · simp [hdesc, eq_comm]
    · simp [hasc, hdesc]

theorem ofName_eq_error_iff {name : String} {fault : Fault} :
    ofName name = .error fault ↔ ¬ IsName name ∧ fault = .unknownDirection name := by
  rw [ofName, IsName]
  by_cases hasc : name = "asc"
  · simp [hasc]
  · by_cases hdesc : name = "desc"
    · simp [hdesc]
    · simp [hasc, hdesc, eq_comm]

end Direction

namespace SortKey

/-! ### Attributes -/

/-- A letter of ASCII, or an underscore. -/
def IsLetter (c : Char) : Prop := ('A' ≤ c ∧ c ≤ 'Z') ∨ ('a' ≤ c ∧ c ≤ 'z') ∨ c = '_'

/-- A name of letters, digits and underscores of ASCII, the first no digit. -/
def Identifier (name : String) : Prop :=
  ∃ first rest, name.toList = first :: rest ∧ IsLetter first
    ∧ ∀ c ∈ rest, IsLetter c ∨ ('0' ≤ c ∧ c ≤ '9')

theorem isLetter_iff {c : Char} : (c.isAlpha || c = '_') = true ↔ IsLetter c := by
  simp only [IsLetter, Char.isAlpha, Char.isUpper, Char.isLower, Bool.or_eq_true,
    Bool.and_eq_true, decide_eq_true_eq, Char.le_def, ge_iff_le, or_assoc]

theorem isIdentifier_iff {name : String} :
    isIdentifier name.toList = true ↔ Identifier name := by
  rw [Identifier]
  cases name.toList with
  | nil => simp [isIdentifier]
  | cons first rest =>
    have hrest : ∀ c : Char, (c.isAlphanum || c = '_') = true
        ↔ IsLetter c ∨ ('0' ≤ c ∧ c ≤ '9') := by
      intro c
      rw [← isLetter_iff]
      simp only [Char.isAlphanum, Char.isDigit, Bool.or_eq_true, Bool.and_eq_true,
        decide_eq_true_eq, Char.le_def, ge_iff_le]
      tauto
    rw [isIdentifier, Bool.and_eq_true, isLetter_iff, List.all_eq_true]
    simp only [hrest]
    constructor
    · rintro ⟨hfirst, hmore⟩
      exact ⟨first, rest, rfl, hfirst, hmore⟩
    · rintro ⟨_, _, hsplit, hfirst, hmore⟩
      obtain ⟨rfl, rfl⟩ := List.cons.inj hsplit
      exact ⟨hfirst, hmore⟩

/-- Where an attribute is found. -/
def placeOf (name : String) : String :=
  if name = "id" then "_id"
  else if name = "feature_projection" then "_featureProjection"
  else if name = "created_at" then "_creationTimeUnix"
  else if name = "updated_at" then "_lastUpdateTimeUnix"
  else name

theorem pathOf_eq (name : String) : pathOf name = placeOf name := by
  rw [pathOf, placeOf, MetaAttribute.ofLogical?]
  simp only [MetaAttribute.all, List.find?, MetaAttribute.logicalName, @eq_comm String _ name]
  by_cases hfeature : name = "feature_projection"
  · simp [hfeature, MetaAttribute.path, MetaAttribute.backendName]
  by_cases hcreated : name = "created_at"
  · simp [hcreated, MetaAttribute.path, MetaAttribute.backendName]
  by_cases hupdated : name = "updated_at"
  · simp [hupdated, MetaAttribute.path, MetaAttribute.backendName]
  · simp [hfeature, hcreated, hupdated]

/-- What is said of a name that is no attribute. -/
def notAnAttribute (name : String) : Fault := .wrongType s!"invalid sorting attribute '{name}'"

theorem of_eq_ok_iff {name : String} {direction : Direction} {key : SortKey} :
    of name direction = .ok key ↔ Identifier name ∧ key = ⟨placeOf name, direction⟩ := by
  rw [of, ← isIdentifier_iff, pathOf_eq]
  split
  · rename_i h
    simp [h, eq_comm]
  · rename_i h
    simp [h]

theorem of_eq_error_iff {name : String} {direction : Direction} {fault : Fault} :
    of name direction = .error fault ↔ ¬ Identifier name ∧ fault = notAnAttribute name := by
  rw [of, ← isIdentifier_iff, notAnAttribute]
  split
  · rename_i h
    simp [h]
  · rename_i h
    simp [h, eq_comm]

/-! ### Pairs -/

/-- A pair of an attribute and a name of a direction. -/
structure Accepted (pair : String × String) : Prop where
  direction : Direction.IsName pair.2
  name : Identifier pair.1

/-- The key of a pair. -/
def keyOf (pair : String × String) : SortKey := ⟨placeOf pair.1, Direction.named pair.2⟩

theorem ofPair_eq_ok_iff {pair : String × String} {key : SortKey} :
    ofPair pair = .ok key ↔ Accepted pair ∧ key = keyOf pair := by
  rw [ofPair, bind_eq_ok_iff]
  simp only [Direction.ofName_eq_ok_iff, of_eq_ok_iff]
  constructor
  · rintro ⟨direction, ⟨hdirection, rfl⟩, hname, rfl⟩
    exact ⟨⟨hdirection, hname⟩, rfl⟩
  · rintro ⟨hpair, rfl⟩
    exact ⟨_, ⟨hpair.direction, rfl⟩, hpair.name, rfl⟩

theorem ofPair_eq_error_iff {pair : String × String} {fault : Fault} :
    ofPair pair = .error fault
      ↔ ¬ Direction.IsName pair.2 ∧ fault = .unknownDirection pair.2
        ∨ Direction.IsName pair.2 ∧ ¬ Identifier pair.1 ∧ fault = notAnAttribute pair.1 := by
  rw [ofPair, bind_eq_error_iff]
  simp only [Direction.ofName_eq_error_iff, Direction.ofName_eq_ok_iff, of_eq_error_iff]
  refine or_congr_right ⟨?_, ?_⟩
  · rintro ⟨direction, ⟨hdirection, -⟩, hfault⟩
    exact ⟨hdirection, hfault⟩
  · rintro ⟨hdirection, hfault⟩
    exact ⟨_, ⟨hdirection, rfl⟩, hfault⟩

/-! ### Calls -/

/-- The keys of a call: those of the bare attributes, which are ascending, and then of the pairs. -/
def keysOf (bare : List String) (directed : List (String × String)) : List SortKey :=
  bare.map (fun name => ⟨placeOf name, .ascending⟩) ++ directed.map keyOf

/-- What is said of a call without attributes. -/
def nothingToSortBy : Fault := .badArguments "expected at least one argument"

variable {bare : List String} {directed : List (String × String)}

theorem ofCall_nil : ofCall [] [] = .error nothingToSortBy := rfl

/-- A call with attributes gives the keys of the bare ones, and then those of the pairs. -/
theorem ofCall_eq (h : ¬ (bare = [] ∧ directed = [])) :
    ofCall bare directed = bare.mapM (of · .ascending) >>= fun first =>
      directed.mapM ofPair >>= fun second => pure (first ++ second) := by
  have hsome : (bare.isEmpty && directed.isEmpty) = false := by
    rw [← Bool.not_eq_true, Bool.and_eq_true, List.isEmpty_iff, List.isEmpty_iff]
    exact h
  simp only [ofCall, hsome]
  rfl

theorem mapM_of_eq_ok_iff {direction : Direction} {keys : List SortKey} :
    bare.mapM (of · direction) = .ok keys
      ↔ (∀ name ∈ bare, Identifier name)
        ∧ keys = bare.map fun name => ⟨placeOf name, direction⟩ :=
  mapM_eq_ok_iff_map fun _ _ => of_eq_ok_iff

theorem mapM_ofPair_eq_ok_iff {keys : List SortKey} :
    directed.mapM ofPair = .ok keys
      ↔ (∀ pair ∈ directed, Accepted pair) ∧ keys = directed.map keyOf :=
  mapM_eq_ok_iff_map fun _ _ => ofPair_eq_ok_iff

/-- A call gives its keys iff it has attributes, and all of them are accepted. -/
theorem ofCall_eq_ok_iff {keys : List SortKey} :
    ofCall bare directed = .ok keys
      ↔ ¬ (bare = [] ∧ directed = []) ∧ (∀ name ∈ bare, Identifier name)
        ∧ (∀ pair ∈ directed, Accepted pair) ∧ keys = keysOf bare directed := by
  by_cases hnothing : bare = [] ∧ directed = []
  · obtain ⟨rfl, rfl⟩ := hnothing
    simp [ofCall_nil]
  · rw [ofCall_eq hnothing, bind_eq_ok_iff]
    simp only [bind_eq_ok_iff, mapM_of_eq_ok_iff, mapM_ofPair_eq_ok_iff]
    constructor
    · rintro ⟨first, ⟨hfirst, rfl⟩, second, ⟨hsecond, rfl⟩, hkeys⟩
      cases hkeys
      exact ⟨hnothing, hfirst, hsecond, rfl⟩
    · rintro ⟨-, hfirst, hsecond, rfl⟩
      exact ⟨_, ⟨hfirst, rfl⟩, _, ⟨hsecond, rfl⟩, rfl⟩

/-- A call and the first thing that is wrong with it: bare attributes are looked at before pairs, and
the direction of a pair before its attribute. -/
inductive Refused : List String → List (String × String) → Fault → Prop
  | nothing : Refused [] [] nothingToSortBy
  | bare {before : List String} {name : String} {after : List String}
      {directed : List (String × String)} (hbefore : ∀ name ∈ before, Identifier name)
      (h : ¬ Identifier name) :
      Refused (before ++ name :: after) directed (notAnAttribute name)
  | direction {bare : List String} {before : List (String × String)} {pair : String × String}
      {after : List (String × String)} (hbare : ∀ name ∈ bare, Identifier name)
      (hbefore : ∀ pair ∈ before, Accepted pair) (h : ¬ Direction.IsName pair.2) :
      Refused bare (before ++ pair :: after) (.unknownDirection pair.2)
  | name {bare : List String} {before : List (String × String)} {pair : String × String}
      {after : List (String × String)} (hbare : ∀ name ∈ bare, Identifier name)
      (hbefore : ∀ pair ∈ before, Accepted pair) (hdirection : Direction.IsName pair.2)
      (h : ¬ Identifier pair.1) :
      Refused bare (before ++ pair :: after) (notAnAttribute pair.1)

theorem exists_of_iff {name : String} {direction : Direction} :
    (∃ key, of name direction = .ok key) ↔ Identifier name := by
  simp [of_eq_ok_iff]

theorem exists_ofPair_iff {pair : String × String} :
    (∃ key, ofPair pair = .ok key) ↔ Accepted pair := by
  simp [ofPair_eq_ok_iff]

/-- **A call is refused for the first thing that is wrong with it.** -/
theorem ofCall_eq_error_iff {fault : Fault} :
    ofCall bare directed = .error fault ↔ Refused bare directed fault := by
  by_cases hnothing : bare = [] ∧ directed = []
  · obtain ⟨rfl, rfl⟩ := hnothing
    rw [ofCall_nil, Except.error.injEq]
    constructor
    · rintro rfl
      exact .nothing
    · intro h
      generalize hbare : ([] : List String) = bare at h
      generalize hdirected : ([] : List (String × String)) = directed at h
      cases h <;> simp_all
  · rw [ofCall_eq hnothing, bind_eq_error_iff, mapM_eq_error_iff]
    simp only [exists_of_iff, of_eq_error_iff, mapM_of_eq_ok_iff, bind_eq_error_iff,
      mapM_eq_error_iff, exists_ofPair_iff, ofPair_eq_error_iff]
    constructor
    · rintro (⟨before, name, after, rfl, hbefore, h, rfl⟩ | ⟨first, ⟨hbare, -⟩, hsecond⟩)
      · exact .bare hbefore h
      · rcases hsecond with ⟨before, pair, after, rfl, hbefore, hpair⟩ | ⟨second, -, hdone⟩
        · rcases hpair with ⟨h, rfl⟩ | ⟨hdirection, h, rfl⟩
          · exact .direction hbare hbefore h
          · exact .name hbare hbefore hdirection h
        · cases hdone
    · intro h
      cases h with
      | nothing => exact absurd ⟨rfl, rfl⟩ hnothing
      | bare hbefore h => exact Or.inl ⟨_, _, _, rfl, hbefore, h, rfl⟩
      | direction hbare hbefore h =>
        exact Or.inr ⟨_, ⟨hbare, rfl⟩, Or.inl ⟨_, _, _, rfl, hbefore, Or.inl ⟨h, rfl⟩⟩⟩
      | name hbare hbefore hdirection h =>
        exact Or.inr ⟨_, ⟨hbare, rfl⟩, Or.inl ⟨_, _, _, rfl, hbefore, Or.inr ⟨hdirection, h, rfl⟩⟩⟩

/-- A call is refused iff it has no attribute, or a name in it is no attribute or no direction. -/
theorem exists_refused_iff :
    (∃ fault, Refused bare directed fault)
      ↔ (bare = [] ∧ directed = [])
        ∨ (∃ name ∈ bare ++ directed.map Prod.fst, ¬ Identifier name)
        ∨ ∃ name ∈ directed.map Prod.snd, ¬ Direction.IsName name := by
  have hrefused : (∃ fault, Refused bare directed fault)
      ↔ ¬ ∃ keys, ofCall bare directed = .ok keys := by
    simp only [← ofCall_eq_error_iff]
    cases ofCall bare directed <;> simp
  have haccepted : (∀ pair ∈ directed, Accepted pair)
      ↔ (∀ name ∈ directed.map Prod.fst, Identifier name)
        ∧ ∀ name ∈ directed.map Prod.snd, Direction.IsName name := by
    simp only [List.forall_mem_map, ← forall₂_and]
    exact forall₂_congr fun pair _ => ⟨fun h => ⟨h.name, h.direction⟩, fun h => ⟨h.2, h.1⟩⟩
  have hbad : ∀ {p : String → Prop} {names : List String},
      (∃ name ∈ names, ¬ p name) ↔ ¬ ∀ name ∈ names, p name := by simp
  rw [hrefused, hbad, hbad, List.forall_mem_append]
  simp only [ofCall_eq_ok_iff, haccepted, exists_and_left, exists_eq]
  tauto

end SortKey

end VectorQuery
