import Mathlib
import VectorQuery.Proofs.Json.Keys
import VectorQuery.Proofs.Selection.Writable

/-!
# Selections are merged

A call of `select` adds its names and its nested fields to what is there: a name or a key that is
there keeps its place, and a value that is given again takes the place of the old one.  The merged
selection is what has to have a field list, but whether the call is refused depends on its own nested
selection alone, since what is there has one.

* `Selection.HoldsScalar`, `Selection.Refused` — the nested selections that are refused;
* `Selection.merge`, `Selection.select_eq_ok_iff` — what comes of a call;
* `Selection.exists_select_iff` — **a call is refused for its nested selection alone**;
* `Selection.foldl_addName`, `Selection.keys_insertAll` — names and keys are kept where they came
  first;
* `Selection.merge_merge`, `Selection.merge_self` — two calls as one, and a call made twice.
-/

namespace VectorQuery.Selection

open Json.Fields

/-! ### Nested selections that are refused -/

/-- A document that holds a null, a truth value or a number, through all arrays and objects. -/
inductive HoldsScalar : Json → Prop
  | null : HoldsScalar .null
  | bool (value : Bool) : HoldsScalar (.bool value)
  | int (value : Int) : HoldsScalar (.int value)
  | float (value : Binary64) : HoldsScalar (.float value)
  | array {items : List Json} {item : Json} (hitem : item ∈ items) (h : HoldsScalar item) :
      HoldsScalar (.array items)
  | object {fields : Json.Fields} {field : String × Json} (hfield : field ∈ fields)
      (h : HoldsScalar field.2) : HoldsScalar (.object fields)

theorem holdsScalar_array_iff {items : List Json} :
    HoldsScalar (.array items) ↔ ∃ item ∈ items, HoldsScalar item := by
  constructor
  · rintro (_ | _ | _ | _ | ⟨hitem, h⟩)
    exact ⟨_, hitem, h⟩
  · rintro ⟨item, hitem, h⟩
    exact .array hitem h

theorem holdsScalar_object_iff {fields : Json.Fields} :
    HoldsScalar (.object fields) ↔ ∃ field ∈ fields, HoldsScalar field.2 := by
  constructor
  · rintro (_ | _ | _ | _ | _ | ⟨hfield, h⟩)
    exact ⟨_, hfield, h⟩
  · rintro ⟨field, hfield, h⟩
    exact .object hfield h

mutual

/-- A document holds a scalar iff not all of its leaves are texts. -/
theorem holdsScalar_iff : ∀ document : Json, HoldsScalar document ↔ ¬ Selectable document
  | .text name => ⟨nofun, fun h => absurd (.text name) h⟩
  | .array items => by
    rw [holdsScalar_array_iff, selectable_array_iff, exists_holdsScalar_iff items]
  | .object fields => by
    rw [holdsScalar_object_iff, selectable_object_iff, exists_holdsScalar_fields_iff fields]
  | .null => ⟨fun _ => nofun, fun _ => .null⟩
  | .bool value => ⟨fun _ => nofun, fun _ => .bool value⟩
  | .int value => ⟨fun _ => nofun, fun _ => .int value⟩
  | .float value => ⟨fun _ => nofun, fun _ => .float value⟩

theorem exists_holdsScalar_iff : ∀ items : List Json,
    (∃ item ∈ items, HoldsScalar item) ↔ ¬ ∀ item ∈ items, Selectable item
  | [] => by simp
  | item :: items => by
    rw [List.exists_mem_cons_iff, List.forall_mem_cons, not_and_or, holdsScalar_iff item,
      exists_holdsScalar_iff items]

theorem exists_holdsScalar_fields_iff : ∀ fields : List (String × Json),
    (∃ field ∈ fields, HoldsScalar field.2) ↔ ¬ ∀ field ∈ fields, Selectable field.2
  | [] => by simp
  | (key, value) :: fields => by
    rw [List.exists_mem_cons_iff, List.forall_mem_cons, not_and_or, holdsScalar_iff value,
      exists_holdsScalar_fields_iff fields]

end

/-- A nested selection that is refused: it is no object, or it holds a scalar. -/
def Refused (nested : Option Json) : Prop :=
  ∃ document, nested = some document ∧ (document.fields? = none ∨ HoldsScalar document)

/-- The fields of a nested selection. -/
def nestedFields (nested : Option Json) : Json.Fields := (nested.bind Json.fields?).getD []

/-- Without a nested selection, or with an object of which all leaves are texts, a call is not
refused. -/
theorem not_refused_iff {nested : Option Json} :
    ¬ Refused nested ↔ (∀ document, nested = some document → document.fields?.isSome = true)
      ∧ ∀ field ∈ nestedFields nested, Selectable field.2 := by
  cases nested with
  | none => simp [Refused, nestedFields]
  | some document =>
    have hdocument : ¬ Refused (some document)
        ↔ document.fields?.isSome = true ∧ Selectable document := by
      simp [Refused, holdsScalar_iff, Option.isSome_iff_ne_none]
    rw [hdocument]
    cases document with
    | object fields => simp [nestedFields, Json.fields?, selectable_object_iff]
    | _ => simp [Json.fields?]

/-! ### One call -/

/-- The selection with more names and nested fields. -/
def merge (selection : Selection) (names : List String) (fields : Json.Fields) : Selection :=
  ⟨names.foldl addName selection.names, insertAll selection.nested fields⟩

variable {selection next : Selection} {names : List String} {nested : Option Json}

/-- A call gives the merged selection iff its nested selection is an object and the merged one can
be written. -/
theorem select_eq_ok_iff :
    selection.select names nested = .ok next
      ↔ (∀ document, nested = some document → document.fields?.isSome = true)
        ∧ (∀ field ∈ next.nested, Selectable field.2)
        ∧ next = selection.merge names (nestedFields nested) := by
  have hwrite : ∀ candidate : Selection,
      (do let _ ← candidate.fields; return candidate : Except Fault Selection) = .ok next
        ↔ (∀ field ∈ next.nested, Selectable field.2) ∧ next = candidate := by
    intro candidate
    rw [Outcome.bind_eq_ok_iff, ← exists_fields_iff]
    constructor
    · rintro ⟨text, htext, hnext⟩
      cases hnext
      exact ⟨⟨text, htext⟩, rfl⟩
    · rintro ⟨⟨text, htext⟩, rfl⟩
      exact ⟨text, htext, rfl⟩
  rcases nested with _ | document
  · simp only [reduceCtorEq, false_implies, implies_true, true_and]
    exact hwrite (selection.merge names [])
  · cases document with
    | object fields =>
      simp only [Option.some.injEq, forall_eq', Json.fields?, Option.isSome_some, true_and]
      exact hwrite (selection.merge names fields)
    | _ =>
      simp only [Option.some.injEq, forall_eq', Json.fields?, Option.isSome_none,
        Bool.false_eq_true, false_and, iff_false]
      nofun

/-- **A call is refused for its nested selection alone**, whatever its names are and whatever has been
selected before. -/
theorem exists_select_iff (names : List String)
    (hstored : ∀ field ∈ selection.nested, Selectable field.2)
    (hkeys : (keys (nestedFields nested)).Nodup) :
    (∃ next, selection.select names nested = .ok next) ↔ ¬ Refused nested := by
  simp only [select_eq_ok_iff, not_refused_iff]
  constructor
  · rintro ⟨_, hobject, hleaves, rfl⟩
    exact ⟨hobject, fun field hfield => hleaves field (mem_insertAll_of_mem hkeys hfield)⟩
  · rintro ⟨hobject, hleaves⟩
    exact ⟨_, hobject, fun field hfield => (mem_insertAll hfield).elim (hstored field) (hleaves field),
      rfl⟩

/-! ### Names and keys -/

theorem addName_eq (names : List String) (name : String) :
    addName names name = if name ∈ names then names else names ++ [name] := by
  rw [addName, List.contains_eq_mem]
  simp only [decide_eq_true_eq]

/-- A name that is added comes last among the names that are kept, or not at all. -/
theorem eraseDups_concat (names : List String) (name : String) :
    (names ++ [name]).eraseDups = addName names.eraseDups name := by
  rw [List.eraseDups_append, addName_eq, List.removeAll]
  by_cases hname : name ∈ names
  · simp [hname]
  · simp [hname, List.eraseDups_cons]

/-- **Names are kept where they came first.** -/
theorem foldl_addName (names more : List String) :
    more.foldl addName names.eraseDups = (names ++ more).eraseDups := by
  induction more generalizing names with
  | nil => rw [List.foldl_nil, List.append_nil]
  | cons name more ih =>
    rw [List.foldl_cons, ← eraseDups_concat, ih, List.append_assoc, List.singleton_append]

/-- Names that are there already change nothing. -/
theorem foldl_addName_of_mem {names more : List String} (h : ∀ name ∈ more, name ∈ names) :
    more.foldl addName names = names := by
  induction more with
  | nil => rfl
  | cons name more ih =>
    obtain ⟨hname, hmore⟩ := List.forall_mem_cons.1 h
    rw [List.foldl_cons, addName_eq, if_pos hname, ih hmore]

theorem mem_foldl_addName {names more : List String} {name : String} :
    name ∈ more.foldl addName names ↔ name ∈ names ∨ name ∈ more := by
  induction more generalizing names with
  | nil => simp
  | cons first more ih =>
    have hadd : name ∈ addName names first ↔ name ∈ names ∨ name = first := by
      rw [addName_eq]
      split
      · rename_i h
        exact ⟨Or.inl, fun hname => hname.elim id fun hsame => hsame ▸ h⟩
      · simp
    rw [List.foldl_cons, ih, hadd, List.mem_cons, or_assoc]

/-- Keys are kept like names. -/
theorem keys_insertAll (fields more : Json.Fields) :
    keys (insertAll fields more) = (keys more).foldl addName (keys fields) := by
  induction more generalizing fields with
  | nil => rfl
  | cons field more ih =>
    show keys (insertAll (insert field.1 field.2 fields) more) = _
    rw [ih, keys_insert, ← addName_eq]
    rfl

/-! ### Several calls -/

/-- Two calls as one. -/
theorem merge_merge (selection : Selection) (names more : List String)
    (fields others : Json.Fields) :
    (selection.merge names fields).merge more others
      = selection.merge (names ++ more) (fields ++ others) := by
  rw [merge, merge, merge, List.foldl_append, insertAll_append]

/-- **A call that is made twice does nothing the second time.** -/
theorem merge_self (hkeys : (keys selection.nested).Nodup) (names : List String)
    (fields : Json.Fields) :
    (selection.merge names fields).merge names fields = selection.merge names fields := by
  have hnames : ∀ name ∈ names, name ∈ names.foldl addName selection.names :=
    fun name hname => mem_foldl_addName.2 (Or.inr hname)
  have hmore : ∀ key ∈ keys fields, key ∈ keys (insertAll selection.nested fields) := by
    intro key hkey
    rw [keys_insertAll]
    exact mem_foldl_addName.2 (Or.inr hkey)
  have hnested : insertAll (insertAll selection.nested fields) fields
      = insertAll selection.nested fields := by
    refine ext_get? ?_ (nodup_insertAll (nodup_insertAll hkeys fields) fields) fun key => ?_
    · rw [keys_insertAll, foldl_addName_of_mem hmore]
    · rw [get?_insertAll, get?_insertAll, ← Option.or_assoc, Option.or_self]
  simp only [merge, hnested, foldl_addName_of_mem hnames]

end VectorQuery.Selection
